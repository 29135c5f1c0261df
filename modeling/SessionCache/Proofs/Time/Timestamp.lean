import Mathlib.Algebra.Group.Nat.Defs
import SessionCache.Proofs.Time.Calendar
import SessionCache.Time.Timestamp

/-!
# Timestamps read back

The text of an instant is a row of numbers with one character after each, so that every number is
read to its end: `number?_paddedChars` reads one of them.

* `Timestamp.ofLenientText?_text`: the lenient reader takes every instant of the calendar.
* `Timestamp.ofText?_numericText`: the strict reader takes those of the years that are written with
  four digits, and no others (`Timestamp.ofText?_numericText_eq_none`).
-/

namespace SessionCache.Timestamp

open Time Text

/-! ## Numbers -/

theorem isDigit_iff {c : Char} : c.isDigit = true ↔ '0' ≤ c ∧ c ≤ '9' := by
  simp [Char.isDigit, Char.le_def]

theorem digit?_of_isDigit {c : Char} (h : c.isDigit = true) : digit? c = some (c.toNat - 48) :=
  if_pos (isDigit_iff.mp h)

theorem digit?_eq_none {c : Char} (h : c.isDigit = false) : digit? c = none :=
  if_neg fun hc => Bool.eq_false_iff.mp h (isDigit_iff.mpr hc)

/-- `rest` does not begin with a digit. -/
def Stops (rest : List Char) : Prop := ∀ c ∈ rest.head?, c.isDigit = false

theorem Stops.cons {c : Char} (h : c.isDigit = false) (rest : List Char) : Stops (c :: rest) := by
  rintro _ ⟨⟩
  exact h

/-- `digits` reads `ds`, if it stops after them or has read `most` digits by then. -/
theorem digits_append {most acc count : Nat} {ds rest : List Char} (hd : ∀ c ∈ ds, c.isDigit = true)
    (hmost : count + ds.length ≤ most) (hstop : count + ds.length = most ∨ Stops rest) :
    digits most acc count (ds ++ rest) =
      (Nat.ofDigitChars 10 ds acc, count + ds.length, rest) := by
  induction ds generalizing acc count with
  | nil =>
    cases rest with
    | nil => rfl
    | cons c rest =>
      rw [List.nil_append, digits]
      split
      · next hlt =>
        obtain heq | hstop := hstop
        · exact absurd heq (Nat.ne_of_lt hlt)
        · rw [digit?_eq_none (hstop c rfl)]
          rfl
      · rfl
  | cons c ds ih =>
    have hlen : count + 1 + ds.length = count + (c :: ds).length := by
      rw [List.length_cons]
      omega
    have hlt : count < most := by
      rw [List.length_cons] at hmost
      omega
    rw [List.cons_append, digits, if_pos hlt, digit?_of_isDigit (hd c List.mem_cons_self)]
    rw [Nat.ofDigitChars_cons, Nat.mul_comm 10 acc, ← hlen]
    exact ih (fun c hc => hd c (List.mem_cons_of_mem _ hc)) (hlen ▸ hmost) (hlen ▸ hstop)

/-- The digits of `n` with zeros in front, up to `width`. -/
def paddedChars (width n : Nat) : List Char :=
  List.replicate (width - (Nat.toDigits 10 n).length) '0' ++ Nat.toDigits 10 n

theorem toList_padded (width n : Nat) : (padded width n).toList = paddedChars width n := by
  have hlen : (toString n).length = (Nat.toDigits 10 n).length := by
    rw [Nat.toString_eq_repr, ← String.length_toList, Nat.toList_repr]
  rw [padded, hlen, paddedChars, String.toList_append, String.toList_ofList, Nat.toString_eq_repr,
    Nat.toList_repr]

theorem isDigit_of_mem_paddedChars {width n : Nat} {c : Char} (h : c ∈ paddedChars width n) :
    c.isDigit = true := by
  obtain h | h := List.mem_append.mp h
  · obtain ⟨-, rfl⟩ := List.mem_replicate.mp h
    rfl
  · exact Nat.isDigit_of_mem_toDigits (by decide) (by decide) h

theorem length_paddedChars {width n : Nat} (hw : 0 < width) (h : n < 10 ^ width) :
    (paddedChars width n).length = width := by
  have hlen : (Nat.toDigits 10 n).length ≤ width := (Nat.length_toDigits_le_iff (by decide) hw).mpr h
  unfold paddedChars
  rw [List.length_append, List.length_replicate]
  omega

@[simp] theorem ofDigitChars_paddedChars (width n : Nat) :
    Nat.ofDigitChars 10 (paddedChars width n) 0 = n := by
  unfold paddedChars
  rw [Nat.ofDigitChars_append, Nat.ofDigitChars_replicate_zero, Nat.mul_zero,
    Nat.ofDigitChars_ten_toDigits]

/-- `number?` undoes `paddedChars`. -/
theorem number?_paddedChars {least most width n : Nat} {rest : List Char}
    (hleast : least ≤ (paddedChars width n).length) (hmost : (paddedChars width n).length ≤ most)
    (hstop : (paddedChars width n).length = most ∨ Stops rest) :
    number? least most (paddedChars width n ++ rest) = some (n, rest) := by
  have hread : digits most 0 0 (paddedChars width n ++ rest) =
      (n, (paddedChars width n).length, rest) := by
    rw [digits_append (fun _ => isDigit_of_mem_paddedChars) (by rwa [Nat.zero_add])
      (by rwa [Nat.zero_add]), ofDigitChars_paddedChars, Nat.zero_add]
  rw [number?, hread]
  exact if_neg (Nat.not_lt.mpr hleast)

theorem trimStart_cons {c : Char} (h : isBlank c = false) (rest : List Char) :
    trimStart (c :: rest) = c :: rest := by
  unfold trimStart
  rw [List.dropWhile_cons_of_neg]
  simp [h]

theorem isBlank_of_isDigit {c : Char} (h : c.isDigit = true) : isBlank c = false := by
  obtain ⟨hlow, hhigh⟩ := Char.isDigit_iff_toNat.mp h
  simp only [Char.reduceToNat] at hlow hhigh
  simp only [isBlank, Bool.or_eq_false_iff, Bool.and_eq_false_iff, decide_eq_false_iff_not,
    beq_eq_false_iff_ne]
  omega

/-! ## Fields -/

/-- `paddedChars` begins with a digit. -/
theorem paddedChars_eq_cons (width n : Nat) :
    ∃ c cs, paddedChars width n = c :: cs ∧ c.isDigit = true := by
  have hne : paddedChars width n ≠ [] := fun h =>
    Nat.toDigits_ne_nil (List.append_eq_nil_iff.mp h).2
  obtain ⟨c, cs, heq⟩ := List.exists_cons_of_ne_nil hne
  exact ⟨c, cs, heq, isDigit_of_mem_paddedChars (heq ▸ List.mem_cons_self)⟩

theorem trimStart_paddedChars (width n : Nat) (rest : List Char) :
    trimStart (paddedChars width n ++ rest) = paddedChars width n ++ rest := by
  obtain ⟨c, cs, heq, hc⟩ := paddedChars_eq_cons width n
  rw [heq, List.cons_append, trimStart_cons (isBlank_of_isDigit hc)]

theorem lenientField?_paddedChars {n : Nat} (h : n < 100) {rest : List Char} (hstop : Stops rest) :
    lenientField? (paddedChars 2 n ++ rest) = some (n, rest) := by
  have hlen : (paddedChars 2 n).length = 2 := length_paddedChars (by decide) h
  rw [lenientField?, trimStart_paddedChars]
  exact number?_paddedChars (by omega) (by omega) (.inr hstop)

theorem lenientYear?_minus (rest : List Char) :
    lenientYear? ('-' :: rest) =
      (number? 1 rest.length rest).map fun (n, rest) => (-(n : Int), rest) := rfl

theorem lenientYear?_plus (rest : List Char) :
    lenientYear? ('+' :: rest) =
      (number? 1 rest.length rest).map fun (n, rest) => ((n : Int), rest) := rfl

theorem lenientYear?_digit {c : Char} (h : c.isDigit = true) (rest : List Char) :
    lenientYear? (c :: rest) =
      (number? 1 4 (c :: rest)).map fun (n, rest) => ((n : Int), rest) := by
  rw [lenientYear?, trimStart_cons (isBlank_of_isDigit h)]
  split
  · next heq =>
    cases heq
    exact absurd h (by decide)
  · next heq =>
    cases heq
    exact absurd h (by decide)
  · rfl

/-- `number?` of a year with a sign, which may have any number of digits. -/
theorem number?_year (n : Nat) {rest : List Char} (hstop : Stops rest) :
    number? 1 (paddedChars 4 n ++ rest).length (paddedChars 4 n ++ rest) = some (n, rest) := by
  obtain ⟨c, cs, heq, -⟩ := paddedChars_eq_cons 4 n
  refine number?_paddedChars ?_ ?_ (.inr hstop)
  · rw [heq, List.length_cons]
    omega
  · rw [List.length_append]
    omega

/-- `lenientYear?` undoes `yearText`, up to the hyphen. -/
theorem lenientYear?_yearText (year : Int) (rest : List Char) :
    lenientYear? ((yearText year).toList ++ '-' :: rest) = some (year, '-' :: rest) := by
  have hstop : Stops ('-' :: rest) := .cons rfl rest
  unfold yearText
  by_cases hfour : 0 ≤ year ∧ year ≤ 9999
  · obtain ⟨c, cs, heq, hc⟩ := paddedChars_eq_cons 4 year.toNat
    have hlen : (paddedChars 4 year.toNat).length = 4 := length_paddedChars (by decide) (by omega)
    have hread : number? 1 4 (paddedChars 4 year.toNat ++ '-' :: rest) =
        some (year.toNat, '-' :: rest) :=
      number?_paddedChars (by omega) (by omega) (.inr hstop)
    rw [if_pos hfour, toList_padded]
    rw [heq, List.cons_append] at hread ⊢
    rw [lenientYear?_digit hc, hread]
    exact congrArg some (Prod.ext (Int.toNat_of_nonneg hfour.1) rfl)
  · rw [if_neg hfour]
    split
    · rw [String.toList_append, toList_padded, List.append_assoc]
      change lenientYear? ('-' :: (paddedChars 4 year.natAbs ++ '-' :: rest)) = _
      rw [lenientYear?_minus, number?_year _ hstop]
      exact congrArg some (Prod.ext (by simp only; omega) rfl)
    · rw [String.toList_append, toList_padded, List.append_assoc]
      change lenientYear? ('+' :: (paddedChars 4 year.natAbs ++ '-' :: rest)) = _
      rw [lenientYear?_plus, number?_year _ hstop]
      exact congrArg some (Prod.ext (by simp only; omega) rfl)

/-! ## Fractions -/

theorem fraction?_digits {width n : Nat} (hw : 0 < width) (hnine : width ≤ 9) (h : n < 10 ^ width)
    {rest : List Char} (hstop : Stops rest) :
    fraction? ('.' :: (paddedChars width n ++ rest)) = some (n * tenTo (9 - width), rest) := by
  have hlen := length_paddedChars hw h
  have hread : digits 9 0 0 (paddedChars width n ++ rest) = (n, width, rest) := by
    rw [digits_append (fun _ => isDigit_of_mem_paddedChars) (by omega) (.inr hstop),
      ofDigitChars_paddedChars, hlen, Nat.zero_add]
  have hdrop : rest.dropWhile (fun c => (digit? c).isSome) = rest := by
    cases rest with
    | nil => rfl
    | cons c rest =>
      rw [List.dropWhile_cons_of_neg]
      simp [digit?_eq_none (hstop c rfl)]
  rw [fraction?, hread]
  simp only [hdrop, if_neg (Nat.ne_of_gt hw)]

/-- `fraction?` undoes `fractionText`. -/
theorem fraction?_fractionText {nanos : Nat} (h : nanos < 10 ^ 9) {c : Char}
    (hdigit : c.isDigit = false) (hpoint : c ≠ '.') (rest : List Char) :
    fraction? ((fractionText nanos).toList ++ c :: rest) = some (nanos, c :: rest) := by
  have hread : ∀ width n, 0 < width → width ≤ 9 → n < 10 ^ width → n * tenTo (9 - width) = nanos →
      fraction? (("." ++ padded width n).toList ++ c :: rest) = some (nanos, c :: rest) := by
    intro width n hw hnine hn hnanos
    rw [String.toList_append, toList_padded, List.append_assoc]
    change fraction? ('.' :: (paddedChars width n ++ c :: rest)) = _
    rw [fraction?_digits hw hnine hn (.cons hdigit rest), hnanos]
  unfold fractionText
  split
  · next hzero =>
    rw [hzero]
    change fraction? (c :: rest) = _
    unfold fraction?
    split
    · next heq => exact absurd (List.cons.inj heq).1 hpoint
    · rfl
  · split
    · refine hread 3 _ (by decide) (by decide) (by omega) ?_
      change nanos / 1000000 * 1000000 = nanos
      omega
    · split
      · refine hread 6 _ (by decide) (by decide) (by omega) ?_
        change nanos / 1000 * 1000 = nanos
        omega
      · exact hread 9 _ (by decide) (by decide) h (Nat.mul_one nanos)

/-- The seconds stop at the point of the fraction, or at the letter after them. -/
theorem stops_fractionText (nanos : Nat) {c : Char} (hdigit : c.isDigit = false)
    (rest : List Char) : Stops ((fractionText nanos).toList ++ c :: rest) := by
  have hpoint : ∀ text : String, Stops (("." ++ text).toList ++ c :: rest) := by
    intro text
    rw [String.toList_append, List.append_assoc]
    exact .cons (c := '.') rfl _
  unfold fractionText
  split
  · exact .cons hdigit rest
  · split
    · exact hpoint _
    · split <;> exact hpoint _

/-! ## Timestamps -/

/-- `assemble?` of a day and a time of day is their instant, if that is in the calendar. -/
theorem assemble?_ofDays {days : Int} {second nanos : Nat} (hs : second < 86400)
    (hn : nanos < 10 ^ 9) {now : Instant}
    (hnow : now.nanos = (days * 86400 + second) * 1000000000 + nanos)
    (h : .earliest ≤ now) (h' : now ≤ .latest) :
    assemble? (Date.ofDays days) (second / 3600) (second / 60 % 60) (second % 60) nanos 0 =
      some ⟨now, none⟩ := by
  have hlow : -8334601228800 * 1000000000 ≤ now.nanos := h
  have hhigh : now.nanos ≤ 8210266876800 * 1000000000 - 1 := h'
  have hyears := Date.ofDays_year_mem (show -96465292 ≤ days by omega) (by omega)
  have hinDay : second / 3600 * 3600 + second / 60 % 60 * 60 + min (second % 60) 59 = second := by
    omega
  have hstamp : (⟨(days * 86400 + second - 0 * 60) * 1000000000 + nanos⟩ : Instant) = now := by
    cases now
    simp only at hnow
    rw [hnow, Int.zero_mul, Int.sub_zero]
  rw [assemble?, if_pos ⟨Date.isValid_ofDays days, by omega, by omega, by omega, hyears⟩,
    Date.toDays_ofDays, hinDay]
  simp only [if_neg (show ¬second % 60 = 60 by omega), hstamp]
  exact if_pos ⟨h, h'⟩

theorem toList_clockText (second : Nat) :
    (clockText second false).toList =
      paddedChars 2 (second / 3600) ++ ':' :: (paddedChars 2 (second / 60 % 60) ++
        ':' :: paddedChars 2 (second % 60)) := by
  simp only [clockText, String.toList_append, toList_padded, List.append_assoc]
  rfl

theorem toList_dateText (date : Date) :
    (dateText date).toList =
      (yearText date.year).toList ++ '-' :: (paddedChars 2 date.month ++
        '-' :: paddedChars 2 date.day) := by
  simp only [dateText, String.toList_append, toList_padded, List.append_assoc]
  rfl

theorem toList_localText {now : Instant} {date : Date} {second nanos : Nat}
    (hparts : parts now = (date, second, nanos)) :
    (localText now).toList =
      (dateText date).toList ++ 'T' :: ((clockText second false).toList ++
        (fractionText nanos).toList) := by
  have hlocal : localText now =
      dateText date ++ "T" ++ clockText second false ++ fractionText nanos := by
    rw [localText, hparts]
    rfl
  have hmark : "T".toList = ['T'] := rfl
  rw [hlocal]
  simp only [String.toList_append, List.append_assoc, hmark, List.cons_append, List.nil_append]

/-- The ranges of the `parts` of an instant. -/
theorem parts_spec {now : Instant} {date : Date} {second nanos : Nat}
    (hparts : parts now = (date, second, nanos)) :
    second < 86400 ∧ nanos < 10 ^ 9 ∧ date.month < 100 ∧ date.day < 100 ∧
      ∃ days, date = Date.ofDays days ∧
        now.nanos = (days * 86400 + second) * 1000000000 + nanos := by
  obtain ⟨rfl, hsecond, hnanos⟩ : Date.ofDays (now.nanos / 1000000000 / 86400) = date ∧
      (now.nanos / 1000000000 % 86400).toNat = second ∧ (now.nanos % 1000000000).toNat = nanos := by
    cases hparts
    exact ⟨rfl, rfl, rfl⟩
  obtain ⟨hmonth, hday⟩ := Date.isValid_le (Date.isValid_ofDays (now.nanos / 1000000000 / 86400))
  exact ⟨by omega, by omega, by omega, by omega, _, rfl, by omega⟩

/-- `assemble?` undoes `parts`. -/
theorem assemble?_parts {now : Instant} {date : Date} {second nanos : Nat}
    (hparts : parts now = (date, second, nanos)) (h : .earliest ≤ now) (h' : now ≤ .latest) :
    assemble? date (second / 3600) (second / 60 % 60) (second % 60) nanos 0 = some ⟨now, none⟩ := by
  obtain ⟨hs, hn, -, -, days, rfl, hnow⟩ := parts_spec hparts
  exact assemble?_ofDays hs hn hnow h h'

/-! ## The lenient reader -/

/-- `literal?` of a letter that is no blank. -/
theorem literal?_trimStart {c : Char} (h : isBlank c = false) (rest : List Char) :
    literal? c (trimStart (c :: rest)) = some rest := by
  rw [trimStart_cons h]
  exact if_pos rfl

/-- `ofLenientText?` undoes `text`, for every instant of the calendar. -/
theorem ofLenientText?_text {now : Instant} (h : .earliest ≤ now) (h' : now ≤ .latest) :
    ofLenientText? (text now) = some ⟨now, none⟩ := by
  rcases hparts : parts now with ⟨date, second, nanos⟩
  obtain ⟨hs, hn, hmonth, hday, -⟩ := parts_spec hparts
  have hstamp := assemble?_parts hparts h h'
  have hhyphen := literal?_trimStart (c := '-') rfl
  have hcolon := literal?_trimStart (c := ':') rfl
  have hmark : ∀ rest, separator? ('T' :: rest) = some rest := fun _ => rfl
  have hzone : lenientZone? ['Z'] = some (0, []) := rfl
  have hzone' : "Z".toList = ['Z'] := rfl
  have hmonth' := fun rest => lenientField?_paddedChars hmonth (.cons (c := '-') rfl rest)
  have hday' := fun rest => lenientField?_paddedChars hday (.cons (c := 'T') rfl rest)
  have hhour := fun rest =>
    lenientField?_paddedChars (show second / 3600 < 100 by omega) (.cons (c := ':') rfl rest)
  have hminute := fun rest =>
    lenientField?_paddedChars (show second / 60 % 60 < 100 by omega) (.cons (c := ':') rfl rest)
  have hsecond := lenientField?_paddedChars (show second % 60 < 100 by omega)
    (stops_fractionText nanos (c := 'Z') rfl [])
  rw [ofLenientText?, text, String.toList_append, toList_localText hparts, toList_dateText,
    toList_clockText, ofLenientChars?, hzone']
  simp only [List.append_assoc, List.cons_append, lenientYear?_yearText, Option.bind_eq_bind,
    Option.bind_some, hhyphen, hcolon, hmark, hmonth', hday', hhour, hminute, hsecond, hzone,
    fraction?_fractionText hn (c := 'Z') rfl (by decide)]
  exact hstamp

/-! ## The strict reader -/

/-- `number?` of two digits. -/
theorem number?_two {n : Nat} (h : n < 100) (rest : List Char) :
    number? 2 2 (paddedChars 2 n ++ rest) = some (n, rest) := by
  have hlen : (paddedChars 2 n).length = 2 := length_paddedChars (by decide) h
  exact number?_paddedChars (Nat.le_of_eq hlen.symm) (Nat.le_of_eq hlen) (.inl hlen)

/-- `number? 4 4` undoes `yearText` of the years 0 to 9999. -/
theorem number?_yearText {year : Int} (h : 0 ≤ year) (h' : year ≤ 9999) (rest : List Char) :
    number? 4 4 ((yearText year).toList ++ rest) = some (year.toNat, rest) := by
  have hlen : (paddedChars 4 year.toNat).length = 4 := length_paddedChars (by decide) (by omega)
  rw [yearText, if_pos ⟨h, h'⟩, toList_padded]
  exact number?_paddedChars (Nat.le_of_eq hlen.symm) (Nat.le_of_eq hlen) (.inl hlen)

/-- `number? 4 4` fails at other years, which begin with a sign. -/
theorem number?_yearText_eq_none {year : Int} (h : ¬(0 ≤ year ∧ year ≤ 9999)) (rest : List Char) :
    number? 4 4 ((yearText year).toList ++ rest) = none := by
  rw [yearText, if_neg h]
  split <;> rw [String.toList_append, List.append_assoc] <;> rfl

/-- The year of `now` is one of 0 to 9999. -/
def HasShortYear (now : Instant) : Prop := 0 ≤ (parts now).1.year ∧ (parts now).1.year ≤ 9999

instance (now : Instant) : Decidable (HasShortYear now) :=
  inferInstanceAs (Decidable (_ ∧ _))

theorem HasShortYear.mem {now : Instant} (h : HasShortYear now) :
    .earliest ≤ now ∧ now ≤ .latest := by
  have hdate : (parts now).1 = Date.ofDays (now.nanos / 1000000000 / 86400) := rfl
  rw [HasShortYear, hdate] at h
  obtain ⟨hlow, hhigh⟩ := Date.days_mem_of_year_mem h.1 h.2
  constructor
  · change -8334601228800 * 1000000000 ≤ now.nanos
    omega
  · change now.nanos ≤ 8210266876800 * 1000000000 - 1
    omega

/-- `ofText?` undoes `numericText`, for those years. -/
theorem ofText?_numericText {now : Instant} (h : HasShortYear now) :
    ofText? (numericText now) = some ⟨now, none⟩ := by
  obtain ⟨hearliest, hlatest⟩ := h.mem
  obtain ⟨hyear, hyear'⟩ := h
  rcases hparts : parts now with ⟨date, second, nanos⟩
  rw [hparts] at hyear hyear'
  obtain ⟨hs, hn, hmonth, hday, -⟩ := parts_spec hparts
  have hstamp := assemble?_parts hparts hearliest hlatest
  have hliteral : ∀ c rest, literal? c (c :: rest) = some rest := fun _ _ => if_pos rfl
  have hmark : ∀ rest, separator? ('T' :: rest) = some rest := fun _ => rfl
  have hzone : offset? (literal? ':') ['+', '0', '0', ':', '0', '0'] = some (0, []) := rfl
  have hzone' : "+00:00".toList = ['+', '0', '0', ':', '0', '0'] := rfl
  have hdate : (⟨(date.year.toNat : Int), date.month, date.day⟩ : Date) = date := by
    rw [Int.toNat_of_nonneg hyear]
  rw [ofText?, numericText, String.toList_append, toList_localText hparts, toList_dateText,
    toList_clockText, ofChars?, hzone']
  simp only [List.append_assoc, List.cons_append, number?_yearText hyear hyear',
    Option.bind_eq_bind, Option.bind_some, hliteral, hmark, number?_two hmonth, number?_two hday,
    number?_two (show second / 3600 < 100 by omega),
    number?_two (show second / 60 % 60 < 100 by omega),
    number?_two (show second % 60 < 100 by omega), hzone, hdate,
    fraction?_fractionText hn (c := '+') rfl (by decide)]
  exact hstamp

/-- `ofText?` fails at `numericText` of any other instant. -/
theorem ofText?_numericText_eq_none {now : Instant} (h : ¬HasShortYear now) :
    ofText? (numericText now) = none := by
  rcases hparts : parts now with ⟨date, second, nanos⟩
  rw [HasShortYear, hparts] at h
  rw [ofText?, numericText, String.toList_append, toList_localText hparts, toList_dateText,
    ofChars?, List.append_assoc, List.append_assoc, number?_yearText_eq_none h]
  rfl

end SessionCache.Timestamp
