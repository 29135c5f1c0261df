import SessionCache.Json.Printer

/-!
# Reading JSON in context

A reader takes what it needs from the front of a text and leaves the rest. What it takes does not
depend on the rest, as long as that does not go on like a number: a value that is a document by
itself is read the same way inside of another one (`Tree.value?_of_parse?`).

* `Tree.stringRest_quote`: a quoted text reads back.
* `Tree.value?_append`: reading with more after the text, and with more fuel.
-/

namespace SessionCache.Json.Tree

open Text

variable {ls rest more : List Letter}

/-! ## Strings -/

/-- `quad?` undoes `controlDigits`. -/
theorem quad?_controlDigits {c : Char} (h : c.toNat < 0x20) :
    ∃ a b, controlDigits c = [a, b] ∧ quad? '0' '0' a b = some c.toNat := by
  refine ⟨Hex.digit (Fin.ofNat 16 (c.toNat / 16)), Hex.digit (Fin.ofNat 16 (c.toNat / 1)), rfl, ?_⟩
  have hzero : Hex.value? '0' = some 0 := by decide
  simp only [quad?, hzero, Hex.value?_digit, Option.bind_eq_bind, Option.bind_some, Hex.toNat,
    List.foldl_cons, List.foldl_nil, Fin.val_ofNat]
  refine congrArg some ?_
  change (((0 * 16 + 0) * 16 + 0) * 16 + c.toNat / 16 % 16) * 16 + c.toNat / 1 % 16 = c.toNat
  omega

/-- `stringRest` undoes `escapeChar`. -/
theorem stringRest_escapeChar (acc : List Char) (c : Char) (rest : List Letter) :
    stringRest acc true none ((escapeChar c).map some ++ rest) =
      stringRest (c :: acc) true none rest := by
  unfold escapeChar
  split
  case h_8 hquote hslash _ _ _ _ _ =>
    split
    · next hlow =>
      obtain ⟨a, b, hdigits, hquad⟩ := quad?_controlDigits hlow
      rw [hdigits]
      simp only [List.cons_append, List.nil_append, List.map_cons, List.map_nil, stringRest, hquad]
      rw [if_neg (by omega), if_neg (by omega), Char.ofNat_toNat]
      rfl
    · next hlow =>
      simp only [List.map_cons, List.map_nil, List.cons_append, List.nil_append]
      rw [stringRest, if_neg hlow]
      · rfl
      · exact hquote
      · exact fun _ _ _ _ _ _ => hslash
      · exact fun _ _ _ => hslash
      · exact hslash
  all_goals rfl

theorem stringRest_escaped (acc s : List Char) (rest : List Letter) :
    stringRest acc true none ((s.flatMap escapeChar).map some ++ some '"' :: rest) =
      some (some (String.ofList (acc.reverse ++ s)), rest) := by
  induction s generalizing acc with
  | nil =>
    rw [List.append_nil]
    rfl
  | cons c s ih =>
    rw [List.flatMap_cons, List.map_append, List.append_assoc, stringRest_escapeChar, ih,
      List.reverse_cons, List.append_assoc, List.singleton_append]

/-- `stringRest` undoes `quote`. -/
theorem stringRest_quote (s : String) (rest : List Letter) :
    ∃ body, (quote s).map some ++ rest = some '"' :: body ∧
      stringRest [] true none body = some (some s, rest) := by
  refine ⟨(s.toList.flatMap escapeChar).map some ++ some '"' :: rest, ?_, ?_⟩
  · simp [quote]
  · rw [stringRest_escaped, List.reverse_nil, List.nil_append, String.ofList_toList]

/-- `stringRest` with more text after the closing quote. -/
theorem stringRest_append {acc : List Char} {sound : Bool} {high : Option Nat}
    {string : Option String} (h : stringRest acc sound high ls = some (string, rest)) :
    stringRest acc sound high (ls ++ more) = some (string, rest ++ more) := by
  fun_induction stringRest acc sound high ls with
  | case1 | case3 | case9 | case10 | case11 => cases h
  | case2 =>
    cases h
    rfl
  | case4 acc sound high a b c d rest n hquad hhigh ih =>
    simp only [List.cons_append, stringRest, hquad]
    rw [if_pos hhigh]
    exact ih h
  | case5 acc sound a b c d rest n hquad hhigh hlow first ih =>
    simp only [List.cons_append, stringRest, hquad]
    rw [if_neg hhigh, if_pos hlow]
    exact ih h
  | case6 acc sound a b c d rest n hquad hhigh hlow ih =>
    simp only [List.cons_append, stringRest, hquad]
    rw [if_neg hhigh, if_pos hlow]
    exact ih h
  | case7 acc sound high a b c d rest n hquad hhigh hlow ih =>
    simp only [List.cons_append, stringRest, hquad]
    rw [if_neg hhigh, if_neg hlow]
    exact ih h
  | case8 acc sound high c rest _ c' hc ih =>
    simp only [List.cons_append]
    rw [stringRest, hc]
    · exact ih h
    · rintro _ _ _ _ _ - rfl
      exact nomatch hc
  | case12 acc sound high c rest hquote _ _ hslash hlow ih =>
    rw [List.cons_append, stringRest, if_neg hlow]
    · exact ih h
    · exact hquote
    · exact fun _ _ _ _ _ _ => hslash
    · exact fun _ _ _ => hslash
    · exact hslash
  | case13 acc sound high rest ih => exact ih h

/-! ## Numbers -/

/-- `more` does not begin with a letter that a number could go on with. -/
def Breaks (more : List Letter) : Prop :=
  ∀ l ∈ more.head?, digit? l = none ∧ l ≠ some '.' ∧ l ≠ some 'e' ∧ l ≠ some 'E'

theorem digits_append (hm : Breaks more) (ls : List Letter) :
    digits (ls ++ more) = ((digits ls).1, (digits ls).2 ++ more) := by
  induction ls with
  | nil =>
    cases more with
    | nil => rfl
    | cons l more =>
      have hl := (hm l rfl).1
      simp [digits, hl]
  | cons l ls ih =>
    simp only [digits, Prod.mk.injEq] at ih ⊢
    cases hl : digit? l with
    | none => simp [hl]
    | some d => simp [hl, ih.1, ih.2]

theorem wholePart?_append (hm : Breaks more) {ds : List Nat} (h : wholePart? ls = some (ds, rest)) :
    wholePart? (ls ++ more) = some (ds, rest ++ more) := by
  unfold wholePart? at *
  rw [digits_append hm]
  rcases hd : digits ls with ⟨_ | ⟨_ | d, _ | ⟨e, es⟩⟩, r⟩ <;> rw [hd] at h <;> cases h <;> rfl

theorem Breaks.fraction? (hm : Breaks more) : fraction? more = some ([], more) := by
  unfold Tree.fraction?
  split
  · exact absurd rfl (hm _ rfl).2.1
  · rfl

theorem fraction?_append (hm : Breaks more) {ds : List Nat} (h : fraction? ls = some (ds, rest)) :
    fraction? (ls ++ more) = some (ds, rest ++ more) := by
  cases ls with
  | nil =>
    cases h
    exact hm.fraction?
  | cons l ls =>
    rw [List.cons_append]
    unfold fraction? at *
    split at h
    · next heq =>
      cases heq
      simp only [digits_append hm]
      rcases hd : digits ls with ⟨_ | ⟨d, ds⟩, r⟩ <;> rw [hd] at h <;> cases h
      rfl
    · next hne =>
      cases h
      split
      · next heq =>
        cases heq
        exact absurd rfl (hne _)
      · rfl

theorem Breaks.exponent? (hm : Breaks more) : exponent? more = some (none, more) := by
  unfold Tree.exponent?
  split
  · next e rest =>
    obtain ⟨-, -, he, hE⟩ := hm _ rfl
    rw [if_neg]
    rintro (rfl | rfl)
    · exact he rfl
    · exact hE rfl
  · rfl

/-- The digits of an exponent, with its sign already read. -/
def power? (negative : Bool) (ls : List Letter) : Option (Option Int × List Letter) :=
  match digits ls with
  | ([], _) => none
  | (ds, rest) => some (some (if negative then -(spelled ds : Int) else (spelled ds : Int)), rest)

theorem exponent?_plus {e : Char} (he : e = 'e' ∨ e = 'E') :
    exponent? (some e :: some '+' :: ls) = power? false ls := by
  simp only [exponent?, if_pos he]
  rfl

theorem exponent?_minus {e : Char} (he : e = 'e' ∨ e = 'E') :
    exponent? (some e :: some '-' :: ls) = power? true ls := by
  simp only [exponent?, if_pos he]
  rfl

theorem exponent?_unsigned {e : Char} (he : e = 'e' ∨ e = 'E') {l : Letter} (hplus : l ≠ some '+')
    (hminus : l ≠ some '-') : exponent? (some e :: l :: ls) = power? false (l :: ls) := by
  simp only [exponent?, if_pos he, List.cons.injEq, hplus, hminus, false_and, imp_self, implies_true]
  rfl

theorem power?_append (hm : Breaks more) {negative : Bool} {exponent : Option Int}
    (h : power? negative ls = some (exponent, rest)) :
    power? negative (ls ++ more) = some (exponent, rest ++ more) := by
  unfold power? at *
  rw [digits_append hm]
  rcases hd : digits ls with ⟨_ | ⟨d, ds⟩, r⟩ <;> rw [hd] at h <;> cases h
  rfl

theorem exponent?_append (hm : Breaks more) {exponent : Option Int}
    (h : exponent? ls = some (exponent, rest)) :
    exponent? (ls ++ more) = some (exponent, rest ++ more) := by
  rcases ls with _ | ⟨_ | e, ls⟩
  · cases h
    exact hm.exponent?
  · cases h
    rfl
  · by_cases he : e = 'e' ∨ e = 'E'
    · obtain _ | ⟨l, ls⟩ := ls
      · simp only [exponent?, if_pos he] at h
        cases h
      · by_cases hplus : l = some '+'
        · subst hplus
          exact (exponent?_plus he).trans (power?_append hm ((exponent?_plus he).symm.trans h))
        · by_cases hminus : l = some '-'
          · subst hminus
            exact (exponent?_minus he).trans (power?_append hm ((exponent?_minus he).symm.trans h))
          · exact (exponent?_unsigned he hplus hminus).trans
              (power?_append hm ((exponent?_unsigned he hplus hminus).symm.trans h))
    · simp only [List.cons_append, exponent?, if_neg he] at h ⊢
      cases h
      rfl

/-- The part of `numeral?` after the sign. -/
def magnitude? (negative : Bool) (ls : List Letter) : Option (Numeral × List Letter) := do
  let (whole, ls) ← wholePart? ls
  let (places, ls) ← fraction? ls
  let (exponent, ls) ← exponent? ls
  return ({ negative, whole, places, exponent }, ls)

theorem numeral?_unsigned {l : Letter} (h : l ≠ some '-') :
    numeral? (l :: ls) = magnitude? false (l :: ls) := by
  unfold numeral?
  split
  next negative ds heq =>
    split at heq
    · next heq' => cases heq'; exact absurd rfl h
    · cases heq; rfl

theorem magnitude?_append (hm : Breaks more) {negative : Bool} {n : Numeral}
    (h : magnitude? negative ls = some (n, rest)) :
    magnitude? negative (ls ++ more) = some (n, rest ++ more) := by
  obtain ⟨⟨whole, ls₁⟩, hwhole, h⟩ := Option.bind_eq_some_iff.mp h
  obtain ⟨⟨places, ls₂⟩, hplaces, h⟩ := Option.bind_eq_some_iff.mp h
  obtain ⟨⟨exponent, ls₃⟩, hexponent, h⟩ := Option.bind_eq_some_iff.mp h
  cases h
  simp only [magnitude?, wholePart?_append hm hwhole, fraction?_append hm hplaces,
    exponent?_append hm hexponent, Option.bind_eq_bind, Option.bind_some]
  rfl

theorem numeral?_append (hm : Breaks more) {n : Numeral} (h : numeral? ls = some (n, rest)) :
    numeral? (ls ++ more) = some (n, rest ++ more) := by
  obtain _ | ⟨l, ls⟩ := ls
  · cases h
  · by_cases hminus : l = some '-'
    · subst hminus
      exact magnitude?_append hm h
    · rw [List.cons_append, numeral?_unsigned hminus]
      rw [numeral?_unsigned hminus] at h
      exact magnitude?_append hm h

/-! ## Values -/

theorem word?_append {cs : List Char} (h : word? cs ls = some rest) :
    word? cs (ls ++ more) = some (rest ++ more) := by
  induction cs generalizing ls with
  | nil =>
    cases h
    rfl
  | cons c cs ih =>
    rcases ls with _ | ⟨_ | x, ls⟩
    · cases h
    · cases h
    · rw [List.cons_append, word?]
      rw [word?] at h
      split at h
      · next hx =>
        rw [if_pos hx]
        exact ih h
      · cases h

/-- `word?` with more text after the word. -/
theorem named_append {cs : List Char} {value tree : Tree}
    (h : (word? cs ls).map (value, ·) = some (tree, rest)) :
    (word? cs (ls ++ more)).map (value, ·) = some (tree, rest ++ more) := by
  obtain ⟨rest', hword, hr⟩ := Option.map_eq_some_iff.mp h
  cases hr
  rw [word?_append hword, Option.map_some]

theorem skipBlank_append {l : Letter} (h : skipBlank ls = l :: rest) :
    skipBlank (ls ++ more) = l :: (rest ++ more) := by
  induction ls with
  | nil => cases h
  | cons x ls ih =>
    unfold skipBlank at *
    rw [List.dropWhile_cons] at h
    rw [List.cons_append, List.dropWhile_cons]
    split at h
    · next hx =>
      rw [if_pos hx]
      exact ih h
    · next hx =>
      cases h
      rw [if_neg hx]

@[simp] theorem value?_nil (fuel : Nat) : value? fuel [] = none := by
  cases fuel <;> rfl

@[simp] theorem items?_nil (fuel : Nat) (acc : List Tree) : items? fuel acc [] = none := by
  cases fuel with
  | zero => rfl
  | succ fuel => rw [items?, value?_nil]

@[simp] theorem fields?_nil (fuel : Nat) (acc : List (Option String × Tree)) :
    fields? fuel acc [] = none := by
  cases fuel <;> rfl

mutual

/-- `value?` with more text after the value, and with more fuel. -/
theorem value?_append (hm : Breaks more) (extra : Nat) {fuel : Nat} {ls rest : List Letter}
    {tree : Tree} (h : value? fuel ls = some (tree, rest)) :
    value? (fuel + extra) (ls ++ more) = some (tree, rest ++ more) := by
  cases fuel with
  | zero => cases h
  | succ fuel =>
    rw [Nat.succ_add, value?]
    rw [value?] at h
    split at h
    · next heq =>
      rw [skipBlank_append heq]
      exact named_append h
    · next heq =>
      rw [skipBlank_append heq]
      exact named_append h
    · next heq =>
      rw [skipBlank_append heq]
      exact named_append h
    · next heq =>
      rw [skipBlank_append heq]
      obtain ⟨⟨string, rest'⟩, hstring, hr⟩ := Option.map_eq_some_iff.mp h
      cases hr
      simp only [stringRest_append hstring, Option.map_some]
    · next rest₁ heq =>
      rw [skipBlank_append heq]
      simp only
      split at h
      · next hclose =>
        rw [skipBlank_append hclose]
        cases h
        rfl
      · next hopen =>
        obtain ⟨⟨items, rest₂⟩, hitems, hr⟩ := Option.map_eq_some_iff.mp h
        cases hr
        cases hskip : skipBlank rest₁ with
        | nil => rw [hskip, items?_nil] at hitems; cases hitems
        | cons l rest₃ =>
          rw [hskip] at hitems
          rw [skipBlank_append hskip]
          have hitems' := items?_append hm extra hitems
          rw [List.cons_append] at hitems'
          split
          · next heq' => cases heq'; exact absurd hskip (hopen _)
          · rw [hitems']
            rfl
    · next rest₁ heq =>
      rw [skipBlank_append heq]
      simp only
      split at h
      · next hclose =>
        rw [skipBlank_append hclose]
        cases h
        rfl
      · next hopen =>
        obtain ⟨⟨fields, rest₂⟩, hfields, hr⟩ := Option.map_eq_some_iff.mp h
        cases hr
        cases hskip : skipBlank rest₁ with
        | nil => rw [hskip, fields?_nil] at hfields; cases hfields
        | cons l rest₃ =>
          rw [hskip] at hfields
          rw [skipBlank_append hskip]
          have hfields' := fields?_append hm extra hfields
          rw [List.cons_append] at hfields'
          split
          · next heq' => cases heq'; exact absurd hskip (hopen _)
          · rw [hfields']
            rfl
    · next hn ht hf hquote hbracket hbrace =>
      obtain ⟨⟨n, rest₁⟩, hnumeral, hr⟩ := Option.map_eq_some_iff.mp h
      cases hr
      cases hskip : skipBlank ls with
      | nil => rw [hskip] at hnumeral; cases hnumeral
      | cons l rest₂ =>
        rw [hskip] at hnumeral
        rw [skipBlank_append hskip]
        have hnumeral' := numeral?_append hm hnumeral
        rw [List.cons_append] at hnumeral'
        split
        · next heq => cases heq; exact absurd hskip (hn _)
        · next heq => cases heq; exact absurd hskip (ht _)
        · next heq => cases heq; exact absurd hskip (hf _)
        · next heq => cases heq; exact absurd hskip (hquote _)
        · next heq => cases heq; exact absurd hskip (hbracket _)
        · next heq => cases heq; exact absurd hskip (hbrace _)
        · rw [hnumeral']
          rfl

theorem items?_append (hm : Breaks more) (extra : Nat) {fuel : Nat} {acc items : List Tree}
    {ls rest : List Letter} (h : items? fuel acc ls = some (items, rest)) :
    items? (fuel + extra) acc (ls ++ more) = some (items, rest ++ more) := by
  cases fuel with
  | zero => cases h
  | succ fuel =>
    rw [Nat.succ_add, items?]
    rw [items?] at h
    split at h
    · cases h
    · next item rest₁ hitem =>
      rw [value?_append hm extra hitem]
      dsimp only
      split at h
      · next heq =>
        rw [skipBlank_append heq]
        exact items?_append hm extra h
      · next heq =>
        rw [skipBlank_append heq]
        cases h
        rfl
      · cases h

theorem fields?_append (hm : Breaks more) (extra : Nat) {fuel : Nat}
    {acc fields : List (Option String × Tree)} {ls rest : List Letter}
    (h : fields? fuel acc ls = some (fields, rest)) :
    fields? (fuel + extra) acc (ls ++ more) = some (fields, rest ++ more) := by
  cases fuel with
  | zero => cases h
  | succ fuel =>
    rw [Nat.succ_add, fields?]
    rw [fields?] at h
    split at h
    · next heq =>
      rw [skipBlank_append heq]
      simp only
      split at h
      · cases h
      · next name rest₁ hname =>
        rw [stringRest_append hname]
        dsimp only
        split at h
        · next heq' =>
          rw [skipBlank_append heq']
          simp only
          split at h
          · cases h
          · next value rest₂ hvalue =>
            rw [value?_append hm extra hvalue]
            dsimp only
            split at h
            · next heq'' =>
              rw [skipBlank_append heq'']
              exact fields?_append hm extra h
            · next heq'' =>
              rw [skipBlank_append heq'']
              cases h
              rfl
            · cases h
        · cases h
    · cases h

end

/-- A tree that `parse?` reads is also read by `value?` in front of other text. -/
theorem value?_of_parse? {tree : Tree} (h : parse? ls = some tree) (hm : Breaks more) {fuel : Nat}
    (hf : ls.length < fuel) : ∃ rest, value? fuel (ls ++ more) = some (tree, rest ++ more) ∧
      skipBlank rest = [] := by
  unfold parse? at h
  split at h
  · next tree' rest hvalue =>
    split at h
    · next hblank =>
      cases h
      obtain ⟨extra, rfl⟩ := Nat.exists_eq_add_of_le hf
      exact ⟨rest, value?_append hm extra hvalue, List.isEmpty_iff.mp hblank⟩
    · cases h
  · cases h

end SessionCache.Json.Tree
