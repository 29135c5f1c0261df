import SessionCache.Proofs.Record.Recovery
import SessionCache.Simulation.Basket

/-!
# Baskets come back from their records

A basket is written as JSON with its counts as numbers; what is read is the same basket as long as
the counts fit the words that they are read into.

* `LineItem.Fits`, `Basket.Fits`: the counts fit.
* `Basket.stateOf_record`: the basket in a record.
-/

namespace SessionCache

open Json

theorem word?_nat {bits n : Nat} (h : n < twoTo bits) : word? bits (.nat n) = some n := by
  have hfits : fitsUnsigned bits (n : Int) := ⟨by omega, by omega⟩
  simp [word?, Value.nat, hfits]

theorem Json.Value.exact_nat {n : Nat} (h : n < twoTo 64) : (Value.nat n).Exact :=
  .inr ⟨by omega, by omega⟩

/-! ## Items -/

namespace LineItem

/-- `item.quantity < 2 ^ 32`. -/
def Fits (item : LineItem) : Prop := item.quantity < twoTo 32

variable {item : LineItem}

theorem exact_toValue (h : item.Fits) : item.toValue.Exact := by
  have hnames : ["sku", "quantity"].Nodup := by decide
  have hbits : twoTo 32 ≤ twoTo 64 := by decide
  exact ⟨hnames, trivial, Value.exact_nat (Nat.lt_of_lt_of_le h hbits), trivial⟩

theorem depth_toValue (item : LineItem) : item.toValue.depth = 1 := rfl

/-- `canonical` sorts the fields of a `LineItem` by name. -/
theorem canonical_toValue (item : LineItem) : item.toValue.canonical =
    .object [("quantity", .nat item.quantity), ("sku", .string item.sku)] := by
  have hsorted {α : Type} (sku quantity : α) : sortFields [("sku", sku), ("quantity", quantity)] =
      [("quantity", quantity), ("sku", sku)] := by
    simp only [sortFields, List.foldl_cons, List.foldl_nil, insertField, String.reduceLT,
      String.reduceEq, if_true, if_false]
  rw [toValue, Value.canonical_object, hsorted]
  rfl

theorem ofValue?_canonical (h : item.Fits) : ofValue? item.toValue.canonical = some item := by
  rw [canonical_toValue]
  simp [ofValue?, ofParts?, List.lookup_cons, Value.text?, word?_nat h]

end LineItem

/-! ## Baskets -/

namespace Basket

/-- `calls < 2 ^ 64`, and every item `Fits`. -/
structure Fits (b : Basket) : Prop where
  calls : b.calls < twoTo 64
  items : ∀ item ∈ b.items, item.Fits

/-- The envelope of `b` for `key`, written at `now`. -/
def record (b : Basket) (key : Key) (now : Instant) : ByteArray := Envelope.encode key now b.toValue

variable {b : Basket} {key : Key} {now : Instant}

theorem exact_toValue (h : b.Fits) : b.toValue.Exact := by
  have hnames : ["customer", "items", "calls"].Nodup := by decide
  have hitems : (Value.array (b.items.reverse.map LineItem.toValue)).Exact := by
    refine Value.exactItems_iff.mpr fun v hv => ?_
    obtain ⟨item, hitem, rfl⟩ := List.mem_map.mp hv
    exact LineItem.exact_toValue (h.items item (List.mem_reverse.mp hitem))
  exact ⟨hnames, trivial, hitems, Value.exact_nat h.calls, trivial⟩

/-- A `Basket` is at most `Envelope.stateDepth` deep. -/
theorem depth_toValue_le (b : Basket) : b.toValue.depth ≤ Envelope.stateDepth := by
  have hitems : Value.itemsDepth (b.items.reverse.map LineItem.toValue) ≤ 1 := by
    refine Value.itemsDepth_le_iff.mpr fun v hv => ?_
    obtain ⟨item, -, rfl⟩ := List.mem_map.mp hv
    exact item.depth_toValue.le
  have hdepth : b.toValue.depth =
      max 0 (max (Value.itemsDepth (b.items.reverse.map LineItem.toValue) + 1) (max 0 0)) + 1 := rfl
  have hreader : 3 ≤ Envelope.stateDepth := by decide
  omega

theorem sortFields_names {α : Type} (customer items calls : α) :
    sortFields [("customer", customer), ("items", items), ("calls", calls)] =
      [("calls", calls), ("customer", customer), ("items", items)] := by
  simp only [sortFields, List.foldl_cons, List.foldl_nil, insertField, String.reduceLT,
    String.reduceEq, if_true, if_false]

/-- `canonical` sorts the fields of a `Basket` by name. -/
theorem canonical_toValue (b : Basket) : b.toValue.canonical =
    .object [("calls", .nat b.calls), ("customer", .string b.customer),
      ("items", .array (b.items.reverse.map fun item => item.toValue.canonical))] := by
  rw [toValue, Value.canonical_object, sortFields_names]
  simp only [List.map_cons, List.map_nil, Prod.map, Value.canonical_array, List.map_map]
  rfl

theorem mapM_ofValue? {items : List LineItem} (h : ∀ item ∈ items, item.Fits) :
    (items.map fun item => item.toValue.canonical).mapM LineItem.ofValue? = some items := by
  induction items with
  | nil => rfl
  | cons item rest ih =>
    rw [List.map_cons, List.mapM_cons, LineItem.ofValue?_canonical (h item List.mem_cons_self),
      ih fun item hitem => h item (List.mem_cons_of_mem _ hitem)]
    rfl

theorem ofValue?_canonical (h : b.Fits) : ofValue? b.toValue.canonical = some b := by
  have hitems := mapM_ofValue? fun item hitem => h.items item (List.mem_reverse.mp hitem)
  rw [List.map_reverse] at hitems
  rw [canonical_toValue]
  simp [ofValue?, ofParts?, List.lookup_cons, Value.text?, Value.items?, hitems, word?_nat h.calls]

/-- `Store.stateOf` undoes `Basket.record`. -/
theorem stateOf_record (hb : b.Fits) (h : .earliest ≤ now) (h' : now ≤ .latest) :
    Store.stateOf codec key (b.record key now) = .ok b := by
  rw [Store.stateOf, record, Envelope.decode_encode_exact (exact_toValue hb) h h',
    if_pos b.depth_toValue_le]
  simp only [bind, Except.bind, codec, ofValue?_canonical hb]

end Basket

end SessionCache
