import SessionCache.Proofs.Association
import SessionCache.Proofs.Session.Key
import SessionCache.Store.Directory

/-!
# What a folder holds

`Folder.contents f key` are the bytes that a reader of `f` finds under `key`, whatever links lead
there. Writing the record of a `key` that has places of its own (`Folder.Secluded`) is seen under that
key alone.

* `Folder.Leads`: symbolic links lead from one place to another.
* `Folder.follow_congr`, `Folder.reached_congr`: what stands at the end of a way depends on the places
  on it, and on nothing else.
* `Folder.create_eq`, `Folder.write_eq`, `Folder.rename_eq`: the steps of `Folder.put` where nothing
  leads elsewhere.
* `Folder.put_cases`, `Folder.delete_cases`: the ways in which `Folder.put` and `Folder.delete` end.
* `Folder.contents_put`, `Folder.contents_put_error`, `Folder.contents_filter`: `Folder.contents`
  afterwards.
* `Folder.get_eq`, `Folder.contains_eq`: the calls that only look answer with `Folder.contents`.
-/

namespace SessionCache

namespace Folder

theorem recordName_inj {a b : Key} : recordName a = recordName b ↔ a = b := by
  refine ⟨fun h => Key.text_injective ?_, congrArg _⟩
  have h' := congrArg String.toList h
  simp only [recordName, String.toList_append] at h'
  exact String.toList_inj.mp (List.append_cancel_right (List.append_cancel_right h'))

/-- A `temporaryName` is not a `recordName`. -/
theorem temporaryName_ne (a b : Key) : temporaryName a ≠ recordName b := by
  intro h
  have h' := congrArg (fun s => s.toList.getLast?) h
  simp [temporaryName, recordName, extension, String.toList_append, List.getLast?_append] at h'

end Folder

namespace FilePlace

theorem record_inj {a b : Key} : record a = record b ↔ a = b := by
  rw [record, record, named.injEq, Folder.recordName_inj]

theorem temporary_ne (a b : Key) : temporary a ≠ record b := fun h =>
  Folder.temporaryName_ne a b (named.inj h)

end FilePlace

namespace Folder

variable {f f' : Folder} {entries entries' : FileEntries} {place source target : FilePlace}
  {key other : Key} {now : Instant} {bytes : ByteArray}

/-! ## Links -/

/-- Links lead from one place to the other. -/
inductive Leads (entries : FileEntries) : FilePlace → FilePlace → Prop where
  | link {p q : FilePlace} (h : bondAt entries p = .link (some q)) : Leads entries p q
  | further {p q r : FilePlace} (h : bondAt entries p = .link (some q)) (hrest : Leads entries q r) :
    Leads entries p r

theorem Leads.start {p q : FilePlace} (h : Leads entries p q) :
    ∃ target, bondAt entries p = .link target := by
  cases h with
  | link hp => exact ⟨_, hp⟩
  | further hp _ => exact ⟨_, hp⟩

/-- Nothing else uses the places of `key`. -/
structure Secluded (entries : FileEntries) (key : Key) : Prop where
  /-- `.temporary key` is neither a link nor a second name of a file. -/
  own : bondAt entries (.temporary key) = .own
  /-- No record is a link to `.temporary key`. -/
  unwritten : ∀ other, ¬Leads entries (.record other) (.temporary key)
  /-- No other record is a link to `.record key`. -/
  unread : ∀ other, other ≠ key → ¬Leads entries (.record other) (.record key)

theorem Leads.of_derived (h : Derived entries entries') {p q : FilePlace}
    (hleads : Leads entries' p q) : Leads entries p q := by
  have hlink {p q : FilePlace} (hp : bondAt entries' p = .link (some q)) :
      bondAt entries p = .link (some q) := by
    obtain hown | hsame := h p
    · rw [hown] at hp
      cases hp
    · exact hsame.symm.trans hp
  induction hleads with
  | link hp => exact .link (hlink hp)
  | further hp _ ih => exact .further (hlink hp) ih

/-- `Secluded` is kept in `Derived` entries, which have no new links or names. -/
theorem Secluded.of_derived (h : Secluded entries key) (hd : Derived entries entries') :
    Secluded entries' key where
  own := (hd _).elim id fun hsame => hsame.trans h.own
  unwritten other hleads := h.unwritten other (hleads.of_derived hd)
  unread other hne hleads := h.unread other hne (hleads.of_derived hd)

theorem Apart.secluded (h : f.Apart) (key : Key) : Secluded f.entries key where
  own := (h key).1
  unwritten other hleads := hleads.start.elim (h other).2
  unread other _ hleads := hleads.start.elim (h other).2

/-! ## Ways -/

/-- `follow` stays at a place that is no link. -/
theorem follow_of_own (h : bondAt entries place = .own) (links : Nat) :
    follow entries links place = .ok place := by
  unfold follow
  split
  · next hlink => simp [bondAt, hlink, Content.bond] at h
  · rfl

/-- `follow` reads the entries at the places that `Leads` names, and no others. -/
theorem follow_congr (links : Nat)
    (h : ∀ q, q = place ∨ Leads entries place q → entries'.lookup q = entries.lookup q) :
    follow entries' links place = follow entries links place ∧
      ∀ last, follow entries links place = .ok last → entries'.lookup last = entries.lookup last := by
  induction links generalizing place with
  | zero =>
    unfold follow
    rw [h place (.inl rfl)]
    split
    · exact ⟨rfl, fun _ hlast => nomatch hlast⟩
    · refine ⟨rfl, fun last hlast => ?_⟩
      cases hlast
      exact h place (.inl rfl)
  | succ links ih =>
    unfold follow
    rw [h place (.inl rfl)]
    split
    · next target size modified hlink =>
      cases target with
      | none => exact ⟨rfl, fun _ hlast => nomatch hlast⟩
      | some target =>
        have hbond : bondAt entries place = .link (some target) := by
          rw [bondAt, hlink]
          rfl
        refine ih fun q hq => h q (.inr ?_)
        obtain rfl | hleads := hq
        · exact .link hbond
        · exact .further hbond hleads
    · refine ⟨rfl, fun last hlast => ?_⟩
      cases hlast
      exact h place (.inl rfl)

theorem reached_congr
    (h : ∀ q, q = place ∨ Leads entries place q → entries'.lookup q = entries.lookup q) :
    (present entries').reached place = (present entries).reached place := by
  obtain ⟨hfollow, hlast⟩ := follow_congr linkLimit h
  simp only [reached, hfollow]
  cases hend : follow entries linkLimit place with
  | error cause => rfl
  | ok last => simp only [bind, Except.bind, hlast last hend]

/-- A change of the entry at `.temporary key` changes no `reached` record. -/
theorem Secluded.reached_of_temporary (h : Secluded entries key)
    (hsame : ∀ q, q ≠ .temporary key → entries'.lookup q = entries.lookup q) (other : Key) :
    (present entries').reached (.record other) = (present entries).reached (.record other) := by
  refine reached_congr fun q hq => hsame q ?_
  rintro rfl
  obtain heq | hleads := hq
  · exact FilePlace.temporary_ne key other heq
  · exact h.unwritten other hleads

/-- A change of the two entries of `key` changes `reached` of no other record. -/
theorem Secluded.reached_of_places (h : Secluded entries key)
    (hsame : ∀ q, q ≠ .temporary key → q ≠ .record key → entries'.lookup q = entries.lookup q)
    (hne : other ≠ key) :
    (present entries').reached (.record other) = (present entries).reached (.record other) := by
  refine reached_congr fun q hq => hsame q ?_ ?_
  · rintro rfl
    obtain heq | hleads := hq
    · exact FilePlace.temporary_ne key other heq
    · exact h.unwritten other hleads
  · rintro rfl
    obtain heq | hleads := hq
    · exact hne (FilePlace.record_inj.mp heq).symm
    · exact h.unread other hne hleads

/-- `reached` at a place that is no link is its entry. -/
theorem reached_of_own (h : bondAt entries place = .own) :
    (present entries).reached place = match entries.lookup place with
      | some content => .ok content
      | none => .error .notFound := by
  have hfollow := follow_of_own h
  rw [reached, hfollow]
  rfl

/-! ## Steps -/

theorem update_of_own (h : bondAt entries place = .own) (bytes : ByteArray) (now : Instant) :
    update place bytes now entries = setEntry place (.file bytes now) entries := by
  rw [update]
  split
  · next hshared => simp [bondAt, hshared, Content.bond] at h
  · rfl

/-- `entries` has no directory at `place`. -/
def IsFree (entries : FileEntries) (place : FilePlace) : Prop :=
  ∀ size modified, entries.lookup place ≠ some (.directory size modified)

theorem IsFree.setEntry (h : IsFree entries place) (name : FilePlace) (bytes : ByteArray)
    (now : Instant) : IsFree (setEntry name (.file bytes now) entries) place := fun size modified => by
  rw [lookup_setEntry]
  split
  · simp
  · exact h size modified

theorem IsFree.filter (h : IsFree entries place) (name : FilePlace) :
    IsFree (entries.filter (·.1 ≠ name)) place := fun size modified => by
  rw [Assoc.lookup_filter_ne]
  split
  · simp
  · exact h size modified

theorem exists_directory (h : ¬IsFree entries place) :
    ∃ size modified, entries.lookup place = some (.directory size modified) := by
  simpa [IsFree] using h

theorem create_eq (h : bondAt entries place = .own) (hfree : IsFree entries place) (now : Instant) :
    (present entries).create now place = .ok (.present (setEntry place (.file .empty now) entries)) := by
  simp only [create, follow_of_own h, bind, Except.bind, update_of_own h]
  split
  · next size modified heq => exact absurd heq (hfree size modified)
  · rfl

theorem create_ok (hown : bondAt f.entries place = .own) (h : f.create now place = .ok f') :
    ∃ entries, f = .present entries ∧ IsFree entries place ∧
      f' = .present (setEntry place (.file .empty now) entries) := by
  cases f with
  | present entries =>
    have hown : bondAt entries place = .own := hown
    simp only [create, follow_of_own hown, bind, Except.bind, update_of_own hown] at h
    split at h
    · cases h
    · next hfree =>
      cases h
      exact ⟨entries, rfl, hfree, rfl⟩
  | missing => cases h
  | blocked => cases h

theorem write_eq (content : Instant) (old : ByteArray) (now : Instant) (bytes : ByteArray) :
    (present (setEntry place (.file old content) entries)).write now place bytes =
      .ok (.present (setEntry place (.file (old ++ bytes) now) entries)) := by
  have hown : bondAt (setEntry place (.file old content) entries) place = .own := by
    rw [bondAt_setEntry, if_pos rfl]
    rfl
  simp only [write, follow_of_own hown, bind, Except.bind, lookup_setEntry, if_true,
    Content.bytes?, update_of_own hown, setEntry_setEntry]

/-- `rename` of a file that was just written, where `target` is no directory. -/
theorem rename_eq (hne : source ≠ target) (hfree : IsFree entries target) :
    (present (setEntry source (.file bytes now) entries)).rename source target =
      .ok (.present (setEntry target (.file bytes now) (entries.filter (·.1 ≠ source)))) := by
  have hlone (there? : Option Content) :
      there?.any (isOneFile (.file bytes now)) = false := by cases there? <;> rfl
  simp only [rename, lookup_setEntry, if_true, if_neg hne.symm, filter_setEntry, hlone,
    Bool.false_eq_true, if_false]
  split
  · next heq => exact absurd heq (hfree _ _)
  · rfl

/-- `rename` of a file to a directory fails. -/
theorem rename_error (hne : source ≠ target) {size : Nat} {modified : Instant}
    (h : entries.lookup target = some (.directory size modified)) :
    (present (setEntry source (.file bytes now) entries)).rename source target =
      .error .isDirectory := by
  simp only [rename, lookup_setEntry, if_true, if_neg hne.symm, h]

/-! ## Writing a record -/

/-- Neither place of `key` is a directory. -/
structure Free (entries : FileEntries) (key : Key) : Prop where
  record : IsFree entries (.record key)
  temporary : IsFree entries (.temporary key)

/-- The entries after `Folder.put` wrote `bytes` for `key`. -/
def written (key : Key) (bytes : ByteArray) (now : Instant) (entries : FileEntries) : FileEntries :=
  setEntry (.record key) (.file bytes now) (entries.filter (·.1 ≠ .temporary key))

/-- Where both places of `key` are free, `Folder.put` answers `.ok`. -/
theorem put_present (h : Secluded entries key) (hfree : Free entries key) (now : Instant)
    (bytes : ByteArray) :
    (present entries).put now key bytes = (.ok (), .present (written key bytes now entries)) := by
  simp only [put, create_eq h.own hfree.temporary, write_eq, ByteArray.empty_append,
    rename_eq (FilePlace.temporary_ne key key) hfree.record]
  rfl

/-- Where `.record key` is a directory, `Folder.put` fails, and its temporary file stays. -/
theorem put_blocked (h : Secluded entries key) (hfree : IsFree entries (.temporary key))
    {size : Nat} {modified : Instant}
    (hrecord : entries.lookup (.record key) = some (.directory size modified)) (now : Instant)
    (bytes : ByteArray) :
    (present entries).put now key bytes = (.error (.io .isDirectory),
      .present (setEntry (.temporary key) (.file bytes now) entries)) := by
  simp only [put, create_eq h.own hfree, write_eq, ByteArray.empty_append,
    rename_error (FilePlace.temporary_ne key key) hrecord]

/-- `Folder.put` of a `Secluded` key writes the record, or fails at once and changes nothing, or
fails and leaves its temporary file. -/
theorem put_cases (h : Secluded f.entries key) (now : Instant) (bytes : ByteArray) :
    (∃ entries, f = .present entries ∧ Free entries key ∧
      f.put now key bytes = (.ok (), .present (written key bytes now entries))) ∨
    (∃ cause, f.put now key bytes = (.error (.io cause), f)) ∨
    ∃ entries, f = .present entries ∧ IsFree entries (.temporary key) ∧
      (¬IsFree entries (.record key)) ∧ f.put now key bytes = (.error (.io .isDirectory),
        .present (setEntry (.temporary key) (.file bytes now) entries)) := by
  cases hcreate : f.create now (.temporary key) with
  | error cause => exact .inr (.inl ⟨cause, by simp only [put, hcreate]⟩)
  | ok f₁ =>
    obtain ⟨entries, rfl, htemporary, -⟩ := create_ok h.own hcreate
    by_cases hrecord : IsFree entries (.record key)
    · exact .inl ⟨entries, rfl, ⟨hrecord, htemporary⟩, put_present h ⟨hrecord, htemporary⟩ now bytes⟩
    · obtain ⟨size, modified, hdirectory⟩ := exists_directory hrecord
      exact .inr (.inr ⟨entries, rfl, htemporary, hrecord,
        put_blocked h htemporary hdirectory now bytes⟩)

theorem lookup_written (key : Key) (bytes : ByteArray) (now : Instant) (entries : FileEntries)
    (place : FilePlace) : (written key bytes now entries).lookup place =
      if place = .record key then some (.file bytes now)
      else if place = .temporary key then none else entries.lookup place := by
  rw [written, lookup_setEntry, Assoc.lookup_filter_ne]

/-! ## Contents -/

/-- The bytes of the file that the record's name leads to; `none` for a directory. -/
def contents (f : Folder) (key : Key) : Option ByteArray :=
  match f.reached (.record key) with
  | .ok content => content.bytes?
  | .error _ => none

theorem contents_congr (h : f'.reached (.record key) = f.reached (.record key)) :
    f'.contents key = f.contents key := by
  rw [contents, contents, h]

theorem reached_written (key : Key) (bytes : ByteArray) (now : Instant) (entries : FileEntries) :
    (present (written key bytes now entries)).reached (.record key) = .ok (.file bytes now) := by
  rw [reached_of_own]
  · rw [lookup_written, if_pos rfl]
  · rw [bondAt, lookup_written, if_pos rfl]
    rfl

/-- After `Folder.put`, every other record is as it was. -/
theorem Secluded.reached_written (h : Secluded entries key) (bytes : ByteArray) (now : Instant)
    (hne : other ≠ key) : (present (written key bytes now entries)).reached (.record other) =
      (present entries).reached (.record other) :=
  h.reached_of_places (fun q htemporary hrecord => by
    rw [lookup_written, if_neg hrecord, if_neg htemporary]) hne

/-- The file at `.temporary key` is read under no key. -/
theorem Secluded.reached_setEntry (h : Secluded entries key) (content : Content) (other : Key) :
    (present (setEntry (.temporary key) content entries)).reached (.record other) =
      (present entries).reached (.record other) :=
  h.reached_of_temporary (fun q hq => by rw [lookup_setEntry, if_neg hq]) other

theorem contents_put (h : Secluded f.entries key) (hput : f.put now key bytes = (.ok (), f')) :
    f'.contents = Function.update f.contents key (some bytes) := by
  obtain ⟨entries, rfl, -, heq⟩ | ⟨cause, heq⟩ | ⟨_, _, -, -, heq⟩ := put_cases h now bytes
  · cases heq.symm.trans hput
    funext other
    by_cases hother : other = key
    · subst hother
      rw [Function.update_self, contents, reached_written]
      rfl
    · rw [Function.update_of_ne hother]
      exact contents_congr (h.reached_written bytes now hother)
  · cases heq.symm.trans hput
  · cases heq.symm.trans hput

theorem contents_put_error {e : StoreError} (h : Secluded f.entries key)
    (hput : f.put now key bytes = (.error e, f')) : f'.contents = f.contents := by
  obtain ⟨_, _, -, heq⟩ | ⟨cause, heq⟩ | ⟨entries, rfl, -, -, heq⟩ := put_cases h now bytes
  · cases heq.symm.trans hput
  · cases heq.symm.trans hput
    rfl
  · cases heq.symm.trans hput
    exact funext fun other => contents_congr (h.reached_setEntry _ other)

theorem contents_eq_none_of_lookup (h : entries.lookup (.record key) = none) :
    (present entries).contents key = none := by
  have hown : bondAt entries (.record key) = .own := by
    rw [bondAt, h]
    rfl
  rw [contents, reached_of_own hown, h]

theorem contents_eq_none_of_directory {size : Nat} {modified : Instant}
    (h : entries.lookup (.record key) = some (.directory size modified)) :
    (present entries).contents key = none := by
  have hown : bondAt entries (.record key) = .own := by
    rw [bondAt, h]
    rfl
  rw [contents, reached_of_own hown, h]
  rfl

/-- A key with `contents` has an entry in a folder that is there, and it is no directory. -/
theorem lookup_of_contents (h : f.contents key = some bytes) :
    ∃ entries content, f = .present entries ∧ entries.lookup (.record key) = some content ∧
      ∀ size modified, content ≠ .directory size modified := by
  cases f with
  | present entries =>
    cases hlookup : entries.lookup (.record key) with
    | none => rw [contents_eq_none_of_lookup hlookup] at h; cases h
    | some content =>
      refine ⟨entries, content, rfl, hlookup, ?_⟩
      rintro size modified rfl
      rw [contents_eq_none_of_directory hlookup] at h
      cases h
  | missing => cases h
  | blocked => cases h

/-- `Folder.delete` of an entry that is no directory removes that entry. -/
theorem delete_of_lookup {content : Content} (h : entries.lookup (.record key) = some content)
    (hfile : ∀ size modified, content ≠ .directory size modified) :
    (present entries).delete key = (.ok true, .present (entries.filter (·.1 ≠ .record key))) := by
  rw [delete, h]
  split
  · next heq => exact absurd (Option.some.inj heq) (hfile _ _)
  · rfl
  · next heq => cases heq

theorem delete_of_contents (h : f.contents key = some bytes) :
    ∃ entries, f = .present entries ∧
      f.delete key = (.ok true, .present (entries.filter (·.1 ≠ .record key))) := by
  obtain ⟨entries, content, rfl, hlookup, hfile⟩ := lookup_of_contents h
  exact ⟨entries, rfl, delete_of_lookup hlookup hfile⟩

/-- `Folder.delete` removes an entry, answers `false` where there is none, or fails on a
directory. -/
theorem delete_cases (f : Folder) (key : Key) :
    (∃ entries content, f = .present entries ∧ entries.lookup (.record key) = some content ∧
      (∀ size modified, content ≠ .directory size modified) ∧
      f.delete key = (.ok true, .present (entries.filter (·.1 ≠ .record key)))) ∨
    (f.delete key = (.ok false, f) ∧ f.contents key = none) ∨
    ∃ cause, f.delete key = (.error (.io cause), f) ∧ f.contents key = none := by
  cases f with
  | present entries =>
    rw [delete]
    split
    · next hlookup => exact .inr (.inr ⟨_, rfl, contents_eq_none_of_directory hlookup⟩)
    · next content hfile hlookup =>
      refine .inl ⟨entries, content, rfl, hlookup, ?_, rfl⟩
      rintro size modified rfl
      exact hfile size modified rfl
    · next hlookup => exact .inr (.inl ⟨rfl, contents_eq_none_of_lookup hlookup⟩)
  | missing => exact .inr (.inl ⟨rfl, rfl⟩)
  | blocked => exact .inr (.inr ⟨_, rfl, rfl⟩)

/-- After `Folder.delete`, every other record is as it was. -/
theorem Secluded.reached_filter (h : Secluded entries key) (hne : other ≠ key) :
    (present (entries.filter (·.1 ≠ .record key))).reached (.record other) =
      (present entries).reached (.record other) :=
  h.reached_of_places (fun q _ hrecord => by rw [Assoc.lookup_filter_ne, if_neg hrecord]) hne

theorem contents_filter (h : Secluded entries key) :
    (present (entries.filter (·.1 ≠ .record key))).contents =
      Function.update (present entries).contents key none := by
  funext other
  by_cases hother : other = key
  · subst hother
    rw [Function.update_self]
    exact contents_eq_none_of_lookup (by rw [Assoc.lookup_filter_ne, if_pos rfl])
  · rw [Function.update_of_ne hother]
    exact contents_congr (h.reached_filter hother)

theorem get_eq {r : Option ByteArray} (h : f.get key = .ok r) : r = f.contents key := by
  rw [get] at h
  rw [contents]
  split at h
  · next content hreached =>
    rw [hreached]
    dsimp only
    split at h
    · next bytes hbytes => cases h; exact hbytes.symm
    · cases h
  · next hreached => cases h; rw [hreached]
  · cases h

theorem contains_eq {found : Bool} (h : f.contains key = .ok found) :
    found = (f.contents key).isSome := by
  rw [contains] at h
  rw [contents]
  split at h
  · next content hreached => cases h; rw [hreached]
  · next hreached => cases h; rw [hreached]; rfl
  · cases h

theorem reached_of_contents (h : f.contents key = some bytes) :
    ∃ content, f.reached (.record key) = .ok content ∧ content.bytes? = some bytes := by
  rw [contents] at h
  split at h
  · next content hreached => exact ⟨content, hreached, h⟩
  · cases h

theorem get_of_contents (h : f.contents key = some bytes) : f.get key = .ok (some bytes) := by
  obtain ⟨content, hreached, hbytes⟩ := reached_of_contents h
  simp only [get, hreached, hbytes]

theorem contains_of_contents (h : f.contents key = some bytes) : f.contains key = .ok true := by
  obtain ⟨content, hreached, hbytes⟩ := reached_of_contents h
  simp only [contains, hreached, hbytes, Option.isSome_some]

/-- `contents` of an entry that is neither a directory nor a link. -/
theorem contents_of_lookup {content : Content}
    (h : entries.lookup (.record key) = some content)
    (hlink : ∀ target, bondAt entries (.record key) ≠ .link target)
    (hfile : ∀ size modified, content ≠ .directory size modified) :
    (present entries).contents key = content.bytes? ∧ content.bytes?.isSome := by
  have hreached : (present entries).reached (.record key) = .ok content := by
    simp only [reached]
    unfold follow
    rw [h]
    split
    · next target _ _ heq =>
      cases heq
      exact absurd (by rw [bondAt, h]; rfl) (hlink target)
    · simp only [bind, Except.bind, h]
  refine ⟨by rw [contents, hreached], ?_⟩
  cases content with
  | file _ _ => rfl
  | shared _ _ _ => rfl
  | directory size modified => exact absurd rfl (hfile size modified)
  | link target _ _ => exact absurd (by rw [bondAt, h]; rfl) (hlink target)

end Folder

end SessionCache
