import SessionCache.Proofs.Json.Compact
import SessionCache.Proofs.Session.Key
import SessionCache.Proofs.Session.Order
import SessionCache.Record.Envelope

/-!
# Keys by their texts

A key goes by its text: on the command line, as the name of a file, as the key of a row, and as a
string in a record. Whichever way it is read, the text stands for one key.

* `Key.ofJson?`: a JSON document as a key.
* `Key.ofJson?_compact`: a text that is read from JSON is read as any other.
* `Key.naming`: which texts stand for which keys, and in which order.
-/

namespace SessionCache.Key

open Json Text

/-- The key of a JSON document that is a string. -/
def ofJson? (bytes : ByteArray) : Option Key :=
  (Tree.parse? (Letters.ofBytes bytes)).bind Envelope.keyOf?

theorem keyOf?_eq_some_iff {tree : Tree} {key : Key} :
    Envelope.keyOf? tree = some key ↔ ∃ text, tree = .string (some text) ∧ ofText? text = some key := by
  constructor
  · intro h
    unfold Envelope.keyOf? at h
    split at h
    · obtain ⟨text, rfl, h⟩ := Option.bind_eq_some_iff.mp h
      exact ⟨text, rfl, h⟩
    · cases h
  · rintro ⟨text, rfl, h⟩
    exact h

/-- `ofJson?` reads strings only, and reads them by `ofText?`. -/
theorem ofJson?_eq_some_iff {bytes : ByteArray} {key : Key} :
    ofJson? bytes = some key ↔
      ∃ text, Tree.parse? (Letters.ofBytes bytes) = some (.string (some text)) ∧
        ofText? text = some key := by
  simp only [ofJson?, Option.bind_eq_some_iff, keyOf?_eq_some_iff]
  constructor
  · rintro ⟨_, hparse, text, rfl, h⟩
    exact ⟨text, hparse, h⟩
  · rintro ⟨text, hparse, h⟩
    exact ⟨_, hparse, text, rfl, h⟩

theorem ofJson?_compact (text : String) :
    ofJson? (Value.string text).compact.toUTF8 = ofText? text := by
  rw [ofJson?, Letters.ofBytes_toUTF8, (Value.readsAs_string text).parse?_compact]
  rfl

/-- For every key: `ofText?` undoes `text`, which has 36 characters, in groups of 8, 4, 4, 4 and 12
digits in lower case. `ofText?` reads exactly the `Spelling`s of a key, and a JSON string is read
like the text in it. `text` is injective, and keys are ordered as their texts are, byte by byte. -/
theorem naming :
    (∀ key : Key, ofText? key.text = some key ∧ key.text.length = 36 ∧
      Grouped [8, 4, 4, 4, 12] key.digits.toList key.text.toList ∧ ∀ c ∈ key.text.toList, Lower c) ∧
    (∀ text, ofJson? (Value.string text).compact.toUTF8 = ofText? text) ∧
    (∀ bytes key, ofJson? bytes = some key ↔
      ∃ text, Tree.parse? (Letters.ofBytes bytes) = some (.string (some text)) ∧
        ofText? text = some key) ∧
    (∀ text key, ofText? text = some key ↔ Spelling key text.toList) ∧
    Function.Injective text ∧
    ∀ a b : Key,
      (a < b ↔ Hex.toNat a.digits.toList < Hex.toNat b.digits.toList) ∧
      (a < b ↔ a.text.toUTF8.data.toList < b.text.toUTF8.data.toList) := by
  refine ⟨fun key => ⟨ofText?_text key, key.length_text, ?_, fun c hc => ?_⟩, ofJson?_compact,
    fun _ _ => ofJson?_eq_some_iff, fun _ _ => ofChars?_eq_some_iff, text_injective,
    fun _ _ => ⟨lt_iff_toNat_lt, lt_iff_bytes_lt⟩⟩
  · rw [text, String.toList_ofList]
    exact key.grouped_chars
  · rw [text, String.toList_ofList] at hc
    exact lower_of_mem_chars hc

end SessionCache.Key
