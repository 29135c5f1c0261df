import SessionCache.Proofs.Json.Compact
import SessionCache.Proofs.Record.Envelope
import SessionCache.Proofs.Store.Calls

/-!
# Sessions recovered from records

What is written of a session is what is read of it later. That holds of every cart. Of a JSON value
it holds as long as the record of the value nests no deeper than the reader goes: a deeper one is
written all the same, and is lost when it is read.

* `Envelope.decode_encode_exact`: what is read in the record of an exact value.
* `Envelope.encode_injective`: different sessions have different records.
* `Codec.chain`: a codec whose texts all read back, but nest as deep as the states are long;
  `Store.stateOf_chain`: what is read in the record of a state that is too long.
* `Store.recovery_of_cart`, `Store.recovery_of_value`: writing a record and then reading it.
-/

namespace SessionCache

open Json

/-! ## Records of exact values -/

namespace Envelope

variable {key other : Key} {now now' : Instant} {v w : Value}

/-- `decode key` of the envelope of an `Exact` value is its `canonical` form, or `.malformed` if it
is deeper than `stateDepth`. -/
theorem decode_encode_exact (hv : v.Exact) (h : .earliest ≤ now) (h' : now ≤ .latest) :
    decode key (encode key now v) =
      if v.depth ≤ stateDepth then .ok v.canonical else .error .malformed := by
  obtain ⟨tree, hread, hmeans⟩ := hv.exists_tree
  split
  · next hdepth =>
    exact decode_encode h h' hread.parse?_compact ((hmeans stateDepth).trans (if_pos hdepth))
  · next hdepth =>
    exact decode_encode_of_none h h' key hread.parse?_compact
      ((hmeans stateDepth).trans (if_neg hdepth))

/-- `decode other` of it is `.belongsTo key`. -/
theorem decode_encode_exact_of_ne (hv : v.Exact) (h : .earliest ≤ now) (h' : now ≤ .latest)
    (hdepth : v.depth ≤ stateDepth) (hne : key ≠ other) :
    decode other (encode key now v) = .error (.belongsTo key) := by
  obtain ⟨tree, hread, hmeans⟩ := hv.exists_tree
  exact decode_encode_of_ne h h' hread.parse?_compact
    ((hmeans stateDepth).trans (if_pos hdepth)) hne

/-- Equal envelopes have the same key and the same `canonical` state. -/
theorem encode_injective (hv : v.Exact) (hw : w.Exact) (h : .earliest ≤ now) (h' : now ≤ .latest)
    (hnow : .earliest ≤ now') (hnow' : now' ≤ .latest) (hdepth : v.depth ≤ stateDepth)
    (hdepth' : w.depth ≤ stateDepth) (heq : encode key now v = encode other now' w) :
    key = other ∧ v.canonical = w.canonical := by
  have hread : decode key (encode key now v) = _ := decode_encode_exact hv h h'
  rw [if_pos hdepth, heq] at hread
  by_cases hne : other = key
  · rw [hne, decode_encode_exact hw hnow hnow', if_pos hdepth'] at hread
    exact ⟨hne.symm, (Except.ok.inj hread).symm⟩
  · rw [decode_encode_exact_of_ne hw hnow hnow' hdepth' hne] at hread
    cases hread

end Envelope

/-! ## States without an end to their depth -/

/-- The `n` of `Value.nested n`. -/
def Json.Value.nesting? : Value → Option Nat
  | .null => some 0
  | .array [v] => (nesting? v).map (· + 1)
  | _ => none

theorem Json.Value.nesting?_nested (n : Nat) : (nested n).nesting? = some n := by
  induction n with
  | zero => rfl
  | succ n ih => rw [nested, nesting?, ih, Option.map_some]

namespace Codec

/-- The codec of `n` as `Value.nested n`. -/
def chain : Codec Nat where
  encode n := .ok (.nested n)
  decode := Value.nesting?

/-- `decode` undoes `encode` at every `n`. -/
theorem chain_roundTrips : chain.RoundTrips := by
  rintro n _ ⟨⟩
  obtain ⟨tree, hread, hmeans⟩ := (Value.exact_nested n).exists_tree
  refine ⟨tree, n, .nested n, hread.parse?_compact, ?_, Value.nesting?_nested n⟩
  rw [hmeans n, Value.depth_nested, if_pos (Nat.le_refl n), Value.canonical_nested]

end Codec

/-- The envelope of a chain of more than `stateDepth` arrays is `.malformed`. -/
theorem Store.stateOf_chain {key : Key} {now : Instant} {n : Nat} (h : .earliest ≤ now)
    (h' : now ≤ .latest) (hdeep : Envelope.stateDepth < n) :
    stateOf Codec.chain key (Envelope.encode key now (.nested n)) = .error .malformed := by
  rw [stateOf, Envelope.decode_encode_exact (Value.exact_nested n) h h', Value.depth_nested,
    if_neg (Nat.not_le.mpr hdeep)]
  rfl

/-! ## Carts -/

namespace Cart

/-- The envelope of `cart` for `key`, written at `now`. -/
def record (cart : Cart) (key : Key) (now : Instant) : ByteArray :=
  Envelope.encode key now cart.toValue

theorem exact_toValue (cart : Cart) : cart.toValue.Exact := by
  have hcalls : (Value.nat cart.calls.toNat).Exact := by
    have hlt := cart.calls.toNat_lt
    have hbound : twoTo 64 = 18446744073709551616 := rfl
    exact .inr (show fitsUnsigned 64 (cart.calls.toNat : Int) from ⟨by omega, by omega⟩)
  have hitems : (Value.array (cart.items.map .string)).Exact := by
    refine Value.exactItems_iff.mpr fun v hv => ?_
    obtain ⟨s, -, rfl⟩ := List.mem_map.mp hv
    trivial
  have hnote : (Value.orNull (cart.note.map .string)).Exact := by
    cases cart.note <;> trivial
  have hnames : ["owner", "items", "calls", "note"].Nodup := by decide
  exact ⟨hnames, trivial, hitems, hcalls, hnote, trivial⟩

/-- A `Cart` is at most `Envelope.stateDepth` deep. -/
theorem depth_toValue_le (cart : Cart) : cart.toValue.depth ≤ Envelope.stateDepth := by
  have hitems : Value.itemsDepth (cart.items.map .string) = 0 := by
    refine Nat.le_zero.mp (Value.itemsDepth_le_iff.mpr fun v hv => ?_)
    obtain ⟨s, -, rfl⟩ := List.mem_map.mp hv
    exact Nat.le_refl 0
  have hnote : (Value.orNull (cart.note.map .string)).depth = 0 := by
    cases cart.note <;> rfl
  simp only [toValue, Value.depth, Value.fieldsDepth, hitems, hnote, Value.nat]
  decide

theorem sortFields_names {α : Type} (owner items calls note : α) :
    sortFields [("owner", owner), ("items", items), ("calls", calls), ("note", note)] =
      [("calls", calls), ("items", items), ("note", note), ("owner", owner)] := by
  simp only [sortFields, List.foldl_cons, List.foldl_nil, insertField, String.reduceLT,
    String.reduceEq, if_true, if_false]

/-- `canonical` sorts the fields of a `Cart` by name. -/
theorem canonical_toValue (cart : Cart) : cart.toValue.canonical =
    .object [("calls", .nat cart.calls.toNat), ("items", .array (cart.items.map .string)),
      ("note", Value.orNull (cart.note.map .string)), ("owner", .string cart.owner)] := by
  have hitems : (Value.array (cart.items.map .string)).canonical =
      .array (cart.items.map .string) := by
    rw [Value.canonical_array, List.map_map]
    rfl
  have hnote : (Value.orNull (cart.note.map .string)).canonical =
      Value.orNull (cart.note.map .string) := by
    cases cart.note <;> rfl
  rw [toValue, Value.canonical_object, sortFields_names]
  simp only [List.map_cons, List.map_nil, Prod.map, hitems, hnote]
  rfl

theorem ofValue?_canonical (cart : Cart) : ofValue? cart.toValue.canonical = some cart := by
  rw [canonical_toValue]
  simp [ofValue?, ofParts?, List.lookup_cons, texts?_map, count?_nat, note?_orNull]

theorem encode_eq (cart : Cart) (h : cart.holdsSocket = false) :
    codec.encode cart = .ok cart.toValue := by
  simp [codec, h]

section Record

variable {key other : Key} {now : Instant} (cart : Cart) (h : .earliest ≤ now) (h' : now ≤ .latest)

include h h'

theorem decode_record : Envelope.decode key (cart.record key now) = .ok cart.toValue.canonical :=
  (Envelope.decode_encode_exact cart.exact_toValue h h').trans (if_pos cart.depth_toValue_le)

/-- `Store.stateOf` undoes `Cart.record`. -/
theorem stateOf_record : Store.stateOf codec key (cart.record key now) = .ok cart := by
  rw [Store.stateOf, cart.decode_record h h']
  simp only [bind, Except.bind, codec, cart.ofValue?_canonical]

theorem stateOf_record_of_ne (hne : key ≠ other) :
    Store.stateOf codec other (cart.record key now) = .error (.belongsTo key) := by
  rw [Store.stateOf, record, Envelope.decode_encode_exact_of_ne cart.exact_toValue h h'
    cart.depth_toValue_le hne]
  rfl

theorem record_injective {now' : Instant} {cart' : Cart} (hnow : .earliest ≤ now')
    (hnow' : now' ≤ .latest) (heq : cart.record key now = cart'.record other now') :
    key = other ∧ cart = cart' := by
  obtain ⟨hkey, hvalue⟩ := Envelope.encode_injective cart.exact_toValue cart'.exact_toValue h h'
    hnow hnow' cart.depth_toValue_le cart'.depth_toValue_le heq
  refine ⟨hkey, Option.some.inj ?_⟩
  rw [← ofValue?_canonical, hvalue, ofValue?_canonical]

end Record

end Cart

namespace Store

/-- For every cart, key and time in the calendar. Without `holdsSocket`, `Store.passivate` answers
`.ok`, `activate` then answers the same cart, `inspect` its JSON, and `activate` of another key
`.belongsTo key`. With `holdsSocket`, `passivate` fails and the store is as before. Equal records
have the same key and the same cart. -/
theorem recovery_of_cart (key : Key) (now : Instant) (cart : Cart) (h : .earliest ≤ now)
    (h' : now ≤ .latest) :
    (cart.holdsSocket = false → ∀ s : Store, s.Open → s.backend.Ready key →
      ∃ s', exec (passivate Cart.codec now key cart) s = (.ok (), s') ∧
        s'.contents = Function.update s.contents key (some (cart.record key now)) ∧
        exec (activate Cart.codec key) s' = (.ok cart, s'.called s'.backend) ∧
        exec (inspect key) s' = (.ok cart.toValue.canonical, s'.called s'.backend)) ∧
    (∀ (s : Store) (other : Key), s.Open → other ≠ key →
      s.contents other = some (cart.record key now) →
      ∃ s', exec (activate Cart.codec other) s =
          (.error (.deserialization other (.belongsTo key)), s') ∧
        s'.contents = Function.update s.contents other none) ∧
    (cart.holdsSocket = true → ∀ s : Store, exec (passivate Cart.codec now key cart) s =
      (.error (.serialization key "holds a live socket"), s)) ∧
    ∀ (key' : Key) (now' : Instant) (cart' : Cart), .earliest ≤ now' → now' ≤ .latest →
      cart.record key now = cart'.record key' now' → key = key' ∧ cart = cart' := by
  refine ⟨fun hsocket s hopen hready => ?_, fun s other hopen hne hc => ?_, fun hsocket s => ?_,
    fun key' now' cart' hnow hnow' heq => cart.record_injective h h' hnow hnow' heq⟩
  · obtain ⟨s', hp, hopen', hcontents⟩ :=
      hopen.exec_passivate hready now (cart.encode_eq hsocket)
    have hc : s'.contents key = some (cart.record key now) := by
      rw [hcontents, Function.update_self]
      rfl
    exact ⟨s', hp, hcontents, hopen'.exec_activate hc (cart.stateOf_record h h'),
      hopen'.exec_inspect hc (cart.decode_record h h')⟩
  · obtain ⟨s', ha, -, hcontents⟩ :=
      hopen.exec_activate_error hc (cart.stateOf_record_of_ne h h' hne.symm)
    exact ⟨s', ha, hcontents⟩
  · rw [passivate, show Cart.codec.encode cart = .error "holds a live socket" from if_pos hsocket]
    rfl

/-- An empty memory with a `fault` that lets every call pass. -/
def fresh : Store := { backend := .memory {}, precedes := fun _ _ => false }

theorem fresh_open : fresh.Open := fun _ _ => rfl

/-- The theorem applies to a cart with characters that are escaped and `calls := 2 ^ 64 - 1`. -/
theorem recovery_of_cart_full :
    ∃ s', exec (passivate Cart.codec ⟨1⟩ (.ofNat 7)
        { owner := "a\"b", items := ["é", "\n"], calls := 18446744073709551615 }) fresh =
          (.ok (), s') ∧
      (exec (activate Cart.codec (.ofNat 7)) s').1 =
        .ok { owner := "a\"b", items := ["é", "\n"], calls := 18446744073709551615 } := by
  obtain ⟨s', hp, -, ha, -⟩ := (recovery_of_cart (.ofNat 7) ⟨1⟩
    { owner := "a\"b", items := ["é", "\n"], calls := 18446744073709551615 } (by decide)
    (by decide)).1 (by decide) fresh fresh_open trivial
  exact ⟨s', hp, congrArg Prod.fst ha⟩

/-! ## JSON values -/

section Json

variable {s : Store} {key : Key} {now : Instant} {v : Value}

/-- `Store.activate` of an `Exact` value up to `stateDepth` deep answers its `canonical` form. -/
theorem Open.exec_activate_value (hopen : s.Open) (hv : v.Exact) (h : .earliest ≤ now)
    (h' : now ≤ .latest) (hc : s.contents key = some (Envelope.encode key now v))
    (hdepth : v.depth ≤ Envelope.stateDepth) :
    exec (activate Codec.json key) s = (.ok v.canonical, s.called s.backend) := by
  refine hopen.exec_activate hc ?_
  rw [stateOf, Envelope.decode_encode_exact hv h h', if_pos hdepth]
  rfl

/-- `Store.activate` of a deeper one answers `.malformed`, and the record is deleted. -/
theorem Open.exec_activate_deep (hopen : s.Open) (hv : v.Exact) (h : .earliest ≤ now)
    (h' : now ≤ .latest) (hc : s.contents key = some (Envelope.encode key now v))
    (hdepth : Envelope.stateDepth < v.depth) :
    ∃ s', exec (activate Codec.json key) s = (.error (.deserialization key .malformed), s') ∧
      s'.contents = Function.update s.contents key none := by
  have hstate : stateOf Codec.json key (Envelope.encode key now v) = .error .malformed := by
    rw [stateOf, Envelope.decode_encode_exact hv h h', if_neg (Nat.not_le.mpr hdepth)]
    rfl
  obtain ⟨s', ha, -, hcontents⟩ := hopen.exec_activate_error hc hstate
  exact ⟨s', ha, hcontents⟩

/-- After `Store.passivate` of `v` the record is the envelope of `v.canonical`. -/
theorem contents_of_passivate_value {s' : Store}
    (hp : exec (passivate Codec.json now key v) s = (.ok (), s')) :
    s'.contents key = some (Envelope.encode key now v.canonical) := by
  obtain ⟨-, ⟨value, -, hvalue, hc⟩ | ⟨message, hr, -⟩ | ⟨e, hr, -⟩⟩ := exec_passivate hp
  · cases hvalue
    rw [hc, Function.update_self]
  · cases hr
  · cases hr

/-- After `Store.passivate` of an `Exact` value `v` has answered `.ok`, `activate` answers
`v.canonical` and leaves the record if `v.depth ≤ stateDepth`; else it answers `.malformed` and
deletes the record. -/
theorem recovery_of_value (hv : v.Exact) (h : .earliest ≤ now) (h' : now ≤ .latest) {s' : Store}
    (hp : exec (passivate Codec.json now key v) s = (.ok (), s')) (hopen : s'.Open) :
    (v.depth ≤ Envelope.stateDepth →
      exec (activate Codec.json key) s' = (.ok v.canonical, s'.called s'.backend)) ∧
    (Envelope.stateDepth < v.depth →
      ∃ s'', exec (activate Codec.json key) s' =
          (.error (.deserialization key .malformed), s'') ∧
        s''.contents = Function.update s'.contents key none) := by
  have hc := contents_of_passivate_value hp
  refine ⟨fun hdepth => ?_, fun hdepth => ?_⟩
  · have hread := hopen.exec_activate_value hv.canonical h h' hc (hv.depth_canonical ▸ hdepth)
    rwa [Value.canonical_canonical] at hread
  · exact hopen.exec_activate_deep hv.canonical h h' hc (hv.depth_canonical ▸ hdepth)

end Json

theorem exec_passivate_nested (n : Nat) : ∃ s',
    exec (passivate Codec.json ⟨0⟩ (.ofNat 7) (.nested n)) fresh = (.ok (), s') ∧ s'.Open := by
  obtain ⟨s', hp, hopen, -⟩ :=
    fresh_open.exec_passivate trivial ⟨0⟩
      (show Codec.json.encode (.nested n) = .ok (Value.nested n).canonical from rfl)
  exact ⟨s', hp, hopen⟩

/-- `Value.nested 126` comes back. -/
theorem recovery_of_value_nested : ∃ s',
    exec (passivate Codec.json ⟨0⟩ (.ofNat 7) (.nested 126)) fresh = (.ok (), s') ∧
      (exec (activate Codec.json (.ofNat 7)) s').1 = .ok (.nested 126) := by
  obtain ⟨s', hp, hopen⟩ := exec_passivate_nested 126
  have ha := (recovery_of_value (Value.exact_nested 126) (by decide) (by decide) hp hopen).1
    (by rw [Value.depth_nested]; decide)
  exact ⟨s', hp, by rw [ha, Value.canonical_nested]⟩

/-- `Value.nested 127` is written with `.ok` and lost at `activate`. -/
theorem recovery_lost : ∃ s' s'',
    exec (passivate Codec.json ⟨0⟩ (.ofNat 7) (.nested 127)) fresh = (.ok (), s') ∧
      exec (activate Codec.json (.ofNat 7)) s' =
        (.error (.deserialization (.ofNat 7) .malformed), s'') ∧
      s''.contents (.ofNat 7) = none := by
  obtain ⟨s', hp, hopen⟩ := exec_passivate_nested 127
  have hc := contents_of_passivate_value hp
  rw [Value.canonical_nested] at hc
  obtain ⟨s'', ha, hcontents⟩ := hopen.exec_activate_deep (Value.exact_nested 127) (by decide) (by decide)
    hc (by rw [Value.depth_nested]; decide)
  exact ⟨s', s'', hp, ha, by rw [hcontents, Function.update_self]⟩

end Store

end SessionCache
