import SessionCache.Proofs.Json.Compact
import SessionCache.Proofs.Session.Key
import SessionCache.Proofs.Time.Timestamp
import SessionCache.Record.Cart
import SessionCache.Store.Sessions

/-!
# Records read back

What is written into the record of a session is found in it again: the key, and the state, if the text
of the state by itself reads back (`Codec.Reads`). That is up to the codec. It is not enough, though:
`Envelope.decode` reads no state whose text nests deeper than `Envelope.stateDepth`, which is 126, and
nothing keeps `Store.passivate` from writing one. So what is read of a record also takes
`Json.Value.Shallow`.

* `Codec.RoundTrips`, `Codec.Readable`, `Codec.Shallow`: what a codec may keep to.
* `Envelope.parse?_toValue`: the document that a record is.
* `Envelope.decode_encode`, `Envelope.decode_encode_of_ne`, `Envelope.decode_encode_of_none`: the
  state is found for the key of the record and for no other key, and not if it nests too deep.
* `Store.stateOf_encode`: the state in the record of a session.
-/

namespace SessionCache

open Json Text

/-! ## Records -/

/-- The JSON text of `value`, read without a limit on its depth, decodes to `state`. -/
def Codec.Reads {σ : Type} (codec : Codec σ) (value : Value) (state : σ) : Prop :=
  ∃ tree depth value', Tree.parse? (Letters.ofText value.compact) = some tree ∧
    tree.toValue? depth = some value' ∧ codec.decode value' = some state

/-- The JSON text of `value`, once parsed, is at most `Envelope.stateDepth` deep. -/
def Json.Value.Shallow (value : Value) : Prop :=
  ∀ tree, Tree.parse? (Letters.ofText value.compact) = some tree → tree.depth ≤ Envelope.stateDepth

namespace Codec

variable {σ : Type} {codec : Codec σ}

/-- `encode` followed by printing, parsing and `decode` is the identity. -/
def RoundTrips (codec : Codec σ) : Prop :=
  ∀ state value, codec.encode state = .ok value → codec.Reads value state

/-- `encode` followed by printing, parsing and `decode` gives some state. -/
def Readable (codec : Codec σ) : Prop :=
  ∀ state value, codec.encode state = .ok value → ∃ state', codec.Reads value state'

/-- Every `encode`d value is `Shallow`. -/
def Shallow (codec : Codec σ) : Prop :=
  ∀ state value, codec.encode state = .ok value → value.Shallow

/-- `RoundTrips` and `Shallow`: a record of any state is read as that state. -/
structure Faithful (codec : Codec σ) : Prop where
  roundTrips : codec.RoundTrips
  shallow : codec.Shallow

theorem RoundTrips.readable (h : codec.RoundTrips) : codec.Readable :=
  fun state value hv => ⟨state, h state value hv⟩

/-- A codec is `Faithful` if its texts decode within `Envelope.stateDepth`. -/
theorem Faithful.of_stateDepth (h : ∀ state value, codec.encode state = .ok value →
    ∃ tree value', Tree.parse? (Letters.ofText value.compact) = some tree ∧
      tree.toValue? Envelope.stateDepth = some value' ∧ codec.decode value' = some state) :
    codec.Faithful where
  roundTrips state value hv := by
    obtain ⟨tree, value', hparse, hvalue, hstate⟩ := h state value hv
    exact ⟨tree, _, value', hparse, hvalue, hstate⟩
  shallow state value hv tree hparse := by
    obtain ⟨tree', value', hparse', hvalue, -⟩ := h state value hv
    obtain rfl := Option.some.inj (hparse.symm.trans hparse')
    exact (Tree.toValue?_limit hvalue).1

end Codec

namespace Envelope

variable {key : Key} {now : Instant} {state : Value} {tree : Tree}

/-- The text of an envelope, field by field. -/
theorem compactChars_toValue : (toValue key now state).compactChars.map some =
    some '\x7b' :: ((quote "format").map some ++ some ':' :: some '1' :: some ',' ::
      ((quote "key").map some ++ some ':' :: ((quote key.text).map some ++ some ',' ::
        ((quote "passivated_at").map some ++ some ':' :: ((quote (Timestamp.text now)).map some ++
          some ',' :: ((quote "state").map some ++ some ':' ::
            (state.compactChars.map some ++ [some '\x7d']))))))) := by
  have hformat : numberChars (.int (recordFormat : Nat)) = ['1'] := by decide
  simp [toValue, Value.compactChars, Value.compactFields, commaSeparated, Value.nat, hformat]

/-- The text of an envelope parses to an object of its four fields. -/
theorem parse?_toValue (h : Tree.parse? (Letters.ofText state.compact) = some tree) :
    Tree.parse? (Letters.ofText (toValue key now state).compact) =
      some (.object [(some "format", .number ⟨false, [1], [], none⟩),
        (some "key", .string (some key.text)),
        (some "passivated_at", .string (some (Timestamp.text now))), (some "state", tree)]) := by
  rw [Value.ofText_compact] at h ⊢
  have hlength : state.compactChars.length + 10 ≤
      ((toValue key now state).compactChars.map (some : Char → Letter)).length := by
    rw [compactChars_toValue]
    simp only [List.length_cons, List.length_append, List.length_map]
    omega
  obtain ⟨extra, hextra⟩ := Nat.exists_eq_add_of_le hlength
  -- Each field takes one unit of fuel, and the state has enough left to be read by itself.
  have hfuel : ((toValue key now state).compactChars.map (some : Char → Letter)).length + 1 =
      state.compactChars.length + 5 + extra + 1 + 1 + 1 + 1 + 1 + 1 := by omega
  have hbreaks : Tree.Breaks [some '\x7d'] := by
    rintro l ⟨⟩
    exact ⟨rfl, nofun, nofun, nofun⟩
  have henough : (state.compactChars.map (some : Char → Letter)).length <
      state.compactChars.length + 5 + extra + 1 := by
    rw [List.length_map]
    omega
  obtain ⟨rest, hstate, hrest⟩ := Tree.value?_of_parse? h hbreaks henough
  have hend : Tree.skipBlank (rest ++ [some '\x7d']) = some '\x7d' :: [] := by
    rw [Tree.skipBlank, List.dropWhile_append]
    rw [Tree.skipBlank] at hrest
    rw [hrest]
    rfl
  have hnumber : ∀ fuel rest, Tree.value? (fuel + 1) (some '1' :: some ',' :: rest) =
      some (.number ⟨false, [1], [], none⟩, some ',' :: rest) := fun _ _ => rfl
  have hcomma : ∀ rest, Tree.skipBlank (some ',' :: rest) = some ',' :: rest := fun _ => rfl
  rw [Tree.parse?, hfuel, compactChars_toValue, Tree.value?_object
    ((Tree.fields?_comma "format" (hnumber _ _) (hcomma _)).trans
      ((Tree.fields?_comma "key" (Tree.value?_quote _ _ _) (hcomma _)).trans
        ((Tree.fields?_comma "passivated_at" (Tree.value?_quote _ _ _) (hcomma _)).trans
          (Tree.fields?_brace "state" hstate hend))))]
  rfl

/-- `ofTree?` of an object with exactly the four fields. -/
theorem ofTree?_object (format key time state : Tree) :
    ofTree? (.object [(some "format", format), (some "key", key), (some "passivated_at", time),
      (some "state", state)]) = ofParts? format key time state := by
  simp [ofTree?, named?, only?]

theorem keyOf?_string (s : String) : keyOf? (.string (some s)) = Key.ofText? s := rfl

theorem timeOf?_string (s : String) : timeOf? (.string (some s)) = Timestamp.ofLenientText? s := rfl

/-- `ofTree?` undoes `encode`, if the state is at most `stateDepth` deep; else it is `none`. -/
theorem ofTree?_encode (h : .earliest ≤ now) (h' : now ≤ .latest)
    (hparse : Tree.parse? (Letters.ofText state.compact) = some tree) :
    (Tree.parse? (Letters.ofBytes (encode key now state))).bind ofTree? =
      (tree.toValue? stateDepth).map fun value => ⟨recordFormat, key, ⟨now, none⟩, value⟩ := by
  have hformat : formatOf? (.number ⟨false, [1], [], none⟩) = some recordFormat := by decide
  rw [encode, Letters.ofBytes_toUTF8, parse?_toValue hparse, Option.bind_some, ofTree?_object,
    ofParts?, hformat, keyOf?_string, Key.ofText?_text, timeOf?_string,
    Timestamp.ofLenientText?_text h h']
  cases tree.toValue? stateDepth <;> rfl

/-- `decode key` undoes `encode key`. -/
theorem decode_encode (h : .earliest ≤ now) (h' : now ≤ .latest) {value : Value}
    (hparse : Tree.parse? (Letters.ofText state.compact) = some tree)
    (hvalue : tree.toValue? stateDepth = some value) :
    decode key (encode key now state) = .ok value := by
  rw [decode, ofTree?_encode h h' hparse, hvalue]
  simp

/-- `decode other` of the envelope of `key ≠ other` is `.belongsTo key`. -/
theorem decode_encode_of_ne (h : .earliest ≤ now) (h' : now ≤ .latest) {value : Value} {other : Key}
    (hparse : Tree.parse? (Letters.ofText state.compact) = some tree)
    (hvalue : tree.toValue? stateDepth = some value) (hne : key ≠ other) :
    decode other (encode key now state) = .error (.belongsTo key) := by
  rw [decode, ofTree?_encode h h' hparse, hvalue]
  simp [hne]

/-- `decode` of an envelope whose state is deeper than `stateDepth` is `.malformed`, for any key. -/
theorem decode_encode_of_none (h : .earliest ≤ now) (h' : now ≤ .latest) (other : Key)
    (hparse : Tree.parse? (Letters.ofText state.compact) = some tree)
    (hnone : tree.toValue? stateDepth = none) :
    decode other (encode key now state) = .error .malformed := by
  rw [decode, ofTree?_encode h h' hparse, hnone]
  rfl

end Envelope

/-- `stateOf key` of the envelope of `key` is the state, if its text is `Shallow`. -/
theorem Store.stateOf_encode {σ : Type} {codec : Codec σ} {key : Key} {now : Instant}
    (h : .earliest ≤ now) (h' : now ≤ .latest) {state : σ} {value : Value}
    (hv : codec.Reads value state) (hshallow : value.Shallow) :
    stateOf codec key (Envelope.encode key now value) = .ok state := by
  obtain ⟨tree, depth, value', hparse, hvalue, hdecode⟩ := hv
  have hlimit : tree.toValue? Envelope.stateDepth = some value' :=
    (Tree.toValue?_limit hvalue).2 _ (hshallow tree hparse)
  have hread : Envelope.decode key (Envelope.encode key now value) = .ok value' :=
    Envelope.decode_encode h h' hparse hlimit
  rw [stateOf, hread]
  simp only [bind, Except.bind, hdecode]

end SessionCache
