import SessionCache.Proofs.Simulation.Past
import SessionCache.Proofs.Simulation.Shelf

/-!
# A workload loses nothing

One worker makes its calls, nobody else works with the cache, and nothing sweeps it. Whatever room
there is for sessions, each basket is in the end what the calls to its session made of it, in memory
or in its record.

* `Underway.call`, `Underway.callAll`: the state in between, after one more call and after a list of
  them.
* `Workload.run_eq`: a whole workload, with the state that it ends in.
* `Workload.lossless`: what that means for the counts, the baskets and the store.
-/

namespace SessionCache

/-! ## The baskets of numbered sessions -/

namespace Shop

variable {shop : Shop} {f g : Nat → Option Basket} {n : Nat} {key : Key}

/-- The basket of each session under its key. -/
def shelf (shop : Shop) (f : Nat → Option Basket) : Shelf := fun key =>
  ((List.range shop.count).find? fun n => shop.keys n = key).bind f

theorem shelf_keys (hn : n < shop.count) (f : Nat → Option Basket) :
    shop.shelf f (shop.keys n) = f n := by
  have hfind : ((List.range shop.count).find? fun m => shop.keys m = shop.keys n) = some n := by
    rw [List.find?_range_eq_some]
    refine ⟨by simp, List.mem_range.mpr hn, fun m hm => ?_⟩
    have hne : shop.keys m ≠ shop.keys n := fun h =>
      absurd (shop.keys_inj m (hm.trans hn) n hn h) hm.ne
    simpa using hne
  rw [shelf, hfind]
  rfl

theorem shelf_of_not_owns (h : ¬shop.Owns key) (f : Nat → Option Basket) :
    shop.shelf f key = none := by
  have hfind : ((List.range shop.count).find? fun n => shop.keys n = key) = none := by
    rw [List.find?_eq_none]
    intro n hn hkey
    exact h ⟨n, List.mem_range.mp hn, by simpa using hkey⟩
  rw [shelf, hfind]
  rfl

/-- `shop.shelf f` is determined by its values at the keys of the sessions. -/
theorem shelf_ext {shelf' : Shelf}
    (h : ∀ n < shop.count, shop.shelf f (shop.keys n) = shelf' (shop.keys n))
    (hothers : ∀ key, ¬shop.Owns key → shelf' key = none) : shop.shelf f = shelf' := by
  funext key
  by_cases howned : shop.Owns key
  · obtain ⟨n, hn, rfl⟩ := howned
    exact h n hn
  · rw [hothers key howned, shelf_of_not_owns howned]

theorem shelf_congr (h : ∀ n < shop.count, f n = g n) : shop.shelf f = shop.shelf g :=
  shelf_ext (fun n hn => by rw [shelf_keys hn, shelf_keys hn, h n hn])
    fun _ howned => shelf_of_not_owns howned g

theorem update_shelf (hn : n < shop.count) (b? : Option Basket) (h : ∀ m, n ≠ m → g m = f m)
    (hself : g n = b?) : Function.update (shop.shelf f) (shop.keys n) b? = shop.shelf g := by
  refine (shelf_ext (fun m hm => ?_) fun key howned => ?_).symm
  · rw [shelf_keys hm]
    by_cases hne : n = m
    · subst hne
      rw [Function.update_self, hself]
    · have hkeys : shop.keys m ≠ shop.keys n := fun hkeys =>
        hne (shop.keys_inj m hm n hn hkeys).symm
      rw [Function.update_of_ne hkeys, shelf_keys hm, h m hne]
  · have hkeys : key ≠ shop.keys n := fun hkey => howned ⟨n, hn, hkey.symm⟩
    rw [Function.update_of_ne hkeys, shelf_of_not_owns howned]

end Shop

/-! ## Making the sessions -/

section Making

variable {shop : Shop} {w : World Basket Nat}

/-- The world in which `Workload.run` starts: an empty cache over `store`. -/
def Workload.opening (store : Store) (now : Instant) : World Basket Nat :=
  { cache := {}, store, now, outside := 0 }

/-- It is `Stocked` with an empty shelf. -/
theorem Shop.stocked_empty {store : Store} (hclear : store.Clear shop.Owns)
    (hothers : store.contents = shop.others) :
    shop.Stocked none (shop.shelf fun _ => none) (Workload.opening store shop.now) where
  distinct := List.nodup_nil
  rests key _ := by
    have hshelf : shop.shelf (fun _ => none) key = none := Option.bind_fun_none _
    rw [hshelf, show (Workload.opening store shop.now).store = store from rfl, hothers]
    exact .absent
  spare := rfl
  full := Nat.zero_le _
  clear := hclear
  now := rfl

/-- The baskets after `n` sessions were made: empty, one for each. -/
def Workload.firstBaskets (count n : Nat) : Option Basket :=
  if n < count then some { customer := customer n } else none

theorem Shop.Stocked.createSessions (h : shop.Stocked none (shop.shelf fun _ => none) w)
    (houtside : w.outside = 0) {count : Nat} (hcount : count ≤ shop.count) :
    ∃ w', exec (Workload.createSessions shop.surroundings count) w =
        (.ok ((List.range count).map shop.keys), w') ∧
      shop.Stocked none (shop.shelf (Workload.firstBaskets count)) w' ∧ Turnover count 0 w w' := by
  induction count with
  | zero =>
    have hfirst : Workload.firstBaskets 0 = fun _ => none := funext fun n => if_neg n.not_lt_zero
    exact ⟨w, rfl, by rw [hfirst]; exact h, ⟨rfl, rfl, rfl⟩⟩
  | succ count ih =>
    obtain ⟨w₁, hcreate, h₁, hturnover⟩ := ih (Nat.le_of_succ_le hcount)
    have hnext : w₁.outside = count := by rw [hturnover.outside, houtside, Nat.zero_add]
    have hnew : shop.shelf (Workload.firstBaskets count) (shop.keys w₁.outside) = none := by
      rw [hnext, Shop.shelf_keys hcount]
      exact if_neg (lt_irrefl _)
    obtain ⟨w₂, hnewest, h₂, hone⟩ :=
      h₁.create (hnext ▸ hcount) hnew (Workload.customer count)
    rw [hnext] at hnewest h₂
    refine ⟨w₂, ?_, ?_, hturnover.trans hone⟩
    · have hlast :
          exec ([count].mapM fun n => Op.create shop.surroundings (Workload.customer n)) w₁ =
            (.ok [shop.keys count], w₂) := by
        rw [List.mapM_cons, exec_bind_ok hnewest]
        rfl
      rw [Workload.createSessions] at hcreate ⊢
      rw [List.range_succ, List.mapM_append, exec_bind_ok hcreate, exec_bind_ok hlast,
        List.map_append]
      rfl
    · rwa [Shop.update_shelf (g := Workload.firstBaskets (count + 1)) hcount] at h₂
      · intro m hm
        have hiff : m < count + 1 ↔ m < count := by omega
        simp only [Workload.firstBaskets, hiff]
      · exact if_pos (Nat.lt_succ_self _)

end Making

/-! ## Making the calls -/

/-- The world after the calls `past`: the shelf has `plan.basket`, and the counts are
`plan.tally`. -/
structure Underway (shop : Shop) (plan : Plan) (past : List Choice) (w : World Basket Nat) :
    Prop where
  count : shop.count = plan.sessions
  stocked : shop.Stocked none (shop.shelf fun n => plan.basket n past) w
  created : w.cache.counters.created = plan.sessions
  removed : w.cache.counters.removed = (plan.tally past).removed

namespace Underway

variable {shop : Shop} {plan : Plan} {past : List Choice} {w w' : World Basket Nat} {c : Choice}

/-- `Underway` after one more call. -/
theorem next (h : Underway shop plan past w) {gone : Nat}
    (hstocked : shop.Stocked none (shop.shelf fun n => plan.basket n (c :: past)) w')
    (hturnover : Turnover 0 gone w w')
    (hremoved : (plan.tally (c :: past)).removed = (plan.tally past).removed + gone) :
    Underway shop plan (c :: past) w' where
  count := h.count
  stocked := hstocked
  created := hturnover.created.trans h.created
  removed := by rw [hturnover.removed, h.removed, hremoved]

/-- A call to a session that is `Gone` is counted as such, and changes no basket. -/
theorem call_gone (h : Underway shop plan past w) (hpos : 0 < plan.sessions)
    (hgone : plan.Gone (plan.target c) past) :
    ∃ w', (Workload.call shop.surroundings plan.removePercent (shop.keys (plan.target c)) c
        (plan.tally past)).run w = (plan.tally (c :: past), w') ∧
      Underway shop plan (c :: past) w' := by
  have hn : plan.target c < shop.count := h.count ▸ plan.target_lt hpos c
  have hshelf : shop.shelf (fun n => plan.basket n past) (shop.keys (plan.target c)) = none :=
    (Shop.shelf_keys hn _).trans (Plan.basket_of_gone hgone)
  obtain ⟨w', hget, h', hquiet⟩ := h.stocked.get_missing ⟨_, hn, rfl⟩ hshelf
  have hsame : (fun n => plan.basket n (c :: past)) = fun n => plan.basket n past := by
    funext n
    by_cases hc : plan.target c = n
    · subst hc
      rw [Plan.basket_of_gone hgone, Plan.basket_of_gone (hgone.cons c)]
    · exact Plan.basket_cons_other hc past
  refine ⟨w', ?_, h.next (hsame ▸ h') hquiet (by rw [Plan.tally_cons_gone hgone]; rfl)⟩
  have hget' : (Op.get shop.surroundings (shop.keys (plan.target c))).run.run w =
      (.error (.notFound _), w') := hget
  rw [Workload.call, StateT.run_bind, hget', Plan.tally_cons_gone hgone]
  rfl

/-- A call to another session: `Op.get` and `Op.finish` succeed, with one item more in the
basket. -/
theorem serve (h : Underway shop plan past w) (hpos : 0 < plan.sessions)
    (hkept : ¬plan.Gone (plan.target c) past) (hwritable : Plan.Writable (c :: past)) :
    ∃ w₁ w₂ slot b, exec (Op.get shop.surroundings (shop.keys (plan.target c))) w = (.ok b, w₁) ∧
      exec (Op.finish shop.surroundings (shop.keys (plan.target c)) (b.add c.item)) w₁ =
        (.ok (), w₂) ∧
      shop.Stocked none (Function.update (shop.shelf fun n => plan.basket n past)
        (shop.keys (plan.target c)) (some (plan.filled (plan.target c) (c :: past)))) w₂ ∧
      w₂.cache.slot? (shop.keys (plan.target c)) = some slot ∧ Turnover 0 0 w w₂ := by
  have hn : plan.target c < shop.count := h.count ▸ plan.target_lt hpos c
  have hshelf : shop.shelf (fun n => plan.basket n past) (shop.keys (plan.target c)) =
      some (plan.filled (plan.target c) past) :=
    (Shop.shelf_keys hn _).trans (Plan.basket_of_kept hkept)
  have hfilled := plan.filled_cons (n := plan.target c) rfl past
  have hfits := hwritable.fits plan (plan.target c)
  rw [hfilled] at hfits
  obtain ⟨w₁, hget, hlent, hquiet⟩ := h.stocked.get hshelf
  obtain ⟨w₂, slot, hfinish, h₂, hslot, hquiet'⟩ := hlent.finish hfits
  exact ⟨w₁, w₂, slot, _, hget, hfinish, hfilled ▸ h₂, hslot, hquiet.then hquiet'⟩

/-- That call with the `Op.remove` that may follow. -/
theorem call_kept (h : Underway shop plan past w) (hpos : 0 < plan.sessions)
    (hkept : ¬plan.Gone (plan.target c) past) (hwritable : Plan.Writable (c :: past)) :
    ∃ w', (Workload.call shop.surroundings plan.removePercent (shop.keys (plan.target c)) c
        (plan.tally past)).run w = (plan.tally (c :: past), w') ∧
      Underway shop plan (c :: past) w' := by
  have hn : plan.target c < shop.count := h.count ▸ plan.target_lt hpos c
  obtain ⟨w₁, w₂, slot, b, hget, hfinish, h₂, hslot, hquiet⟩ := h.serve hpos hkept hwritable
  have hget' : (Op.get shop.surroundings (shop.keys (plan.target c))).run.run w =
      (.ok b, w₁) := hget
  have hfinish' : (Op.finish shop.surroundings (shop.keys (plan.target c))
      (b.add c.item)).run.run w₁ = (.ok (), w₂) := hfinish
  have hothers : ∀ m, plan.target c ≠ m → plan.basket m (c :: past) = plan.basket m past :=
    fun m hm => Plan.basket_cons_other hm past
  have hrun : (Workload.call shop.surroundings plan.removePercent (shop.keys (plan.target c)) c
      (plan.tally past)).run w =
      (if c.roll < plan.removePercent then
        Workload.removeAfter shop.surroundings (shop.keys (plan.target c))
          { plan.tally past with completed := (plan.tally past).completed + 1 }
      else pure { plan.tally past with completed := (plan.tally past).completed + 1 }).run w₂ := by
    rw [Workload.call, StateT.run_bind, hget']
    change (StateT.run (_ >>= _) w₁ : Id _) = _
    rw [StateT.run_bind, hfinish']
    rfl
  rw [hrun]
  by_cases hroll : c.roll < plan.removePercent
  · rw [if_pos hroll]
    obtain ⟨w₃, hremove, h₃, hgone⟩ := h₂.remove hslot
    have hremove' : (Op.remove shop.surroundings (shop.keys (plan.target c))).run.run w₂ =
        (.ok (), w₃) := hremove
    rw [Function.update_idem, Shop.update_shelf hn none hothers
      (Plan.basket_of_gone ((Plan.gone_cons_self rfl past).mpr (.inl hroll)))] at h₃
    refine ⟨w₃, ?_, h.next h₃ (hquiet.then hgone) (by rw [Plan.tally_cons_removed hkept hroll])⟩
    rw [Workload.removeAfter, StateT.run_bind, hremove', Plan.tally_cons_removed hkept hroll]
    rfl
  · rw [if_neg hroll]
    have hstill : ¬plan.Gone (plan.target c) (c :: past) := fun hgone =>
      ((Plan.gone_cons_self rfl past).mp hgone).elim hroll hkept
    rw [Shop.update_shelf hn _ hothers (Plan.basket_of_kept hstill)] at h₂
    refine ⟨w₂, ?_, h.next h₂ hquiet (by rw [Plan.tally_cons_kept hkept hroll]; rfl)⟩
    rw [Plan.tally_cons_kept hkept hroll]
    rfl

/-- `Workload.call` keeps `Underway`. -/
theorem call (h : Underway shop plan past w) (hpos : 0 < plan.sessions)
    (hwritable : Plan.Writable (c :: past)) :
    ∃ w', (Workload.call shop.surroundings plan.removePercent (shop.keys (plan.target c)) c
        (plan.tally past)).run w = (plan.tally (c :: past), w') ∧
      Underway shop plan (c :: past) w' := by
  by_cases hgone : plan.Gone (plan.target c) past
  · exact h.call_gone hpos hgone
  · exact h.call_kept hpos hgone hwritable

/-- `Workload.callAll` keeps `Underway`. -/
theorem callAll (h : Underway shop plan past w) (hpos : 0 < plan.sessions) (cs : List Choice)
    (hwritable : Plan.Writable (cs.reverse ++ past)) :
    ∃ w', (Workload.callAll shop.surroundings plan.removePercent
        ((List.range plan.sessions).map shop.keys) cs (plan.tally past)).run w =
        (plan.tally (cs.reverse ++ past), w') ∧
      Underway shop plan (cs.reverse ++ past) w' := by
  induction cs generalizing past w with
  | nil => exact ⟨w, rfl, h⟩
  | cons c rest ih =>
    have hlist : (c :: rest).reverse ++ past = rest.reverse ++ c :: past := by simp
    rw [hlist] at hwritable ⊢
    obtain ⟨w₁, hcall, h₁⟩ := h.call hpos hwritable.tail
    obtain ⟨w', hrest, h'⟩ := ih h₁ hwritable
    refine ⟨w', ?_, h'⟩
    have hkey : ((List.range plan.sessions).map shop.keys)[c.session %
        ((List.range plan.sessions).map shop.keys).length]? = some (shop.keys (plan.target c)) := by
      have hlt : c.session % plan.sessions < plan.sessions := plan.target_lt hpos c
      rw [List.length_map, List.length_range, List.getElem?_map, List.getElem?_range hlt]
      rfl
    rw [Workload.callAll, hkey]
    dsimp only
    rw [StateT.run_bind, hcall]
    exact hrest

end Underway

/-! ## Whole workloads -/

namespace Workload

variable {shop : Shop} {plan : Plan} {choose : Nat → Nat → Choice} {store : Store}

/-- The first calls of the one worker, latest first. -/
def past (choose : Nat → Nat → Choice) (calls : Nat) : List Choice :=
  ((List.range calls).map (choose 0)).reverse

theorem past_succ (choose : Nat → Nat → Choice) (calls : Nat) :
    past choose (calls + 1) = choose 0 calls :: past choose calls := by
  simp [past, List.range_succ]

theorem choices_of_one_worker (hworkers : plan.workers = 1) (choose : Nat → Nat → Choice) :
    choices plan choose = (List.range plan.calls).map (choose 0) := by
  simp [choices, hworkers]

/-- The calls that `callChosen` makes: all of them, or none if there are no sessions. -/
def made (plan : Plan) (choose : Nat → Nat → Choice) : List Choice :=
  if plan.sessions = 0 then [] else past choose plan.calls

/-- `Workload.callChosen` ends `Underway` after all calls. -/
theorem callChosen_eq (h : Underway shop plan [] w) (hworkers : plan.workers = 1)
    (hwritable : Plan.Writable (past choose plan.calls)) :
    ∃ w', (callChosen shop.surroundings plan choose
        ((List.range plan.sessions).map shop.keys)).run w =
        (plan.tally (made plan choose), w') ∧ Underway shop plan (made plan choose) w' := by
  by_cases hnone : plan.sessions = 0
  · refine ⟨w, ?_, ?_⟩
    · simp only [callChosen, made, hnone]
      rfl
    · rwa [made, if_pos hnone]
  · have hpos : 0 < plan.sessions := Nat.pos_of_ne_zero hnone
    have hkeys : ¬((List.range plan.sessions).map shop.keys).isEmpty = true := by
      simpa using hnone
    obtain ⟨w', hcalls, h'⟩ := h.callAll hpos ((List.range plan.calls).map (choose 0))
      (by rwa [List.append_nil])
    rw [List.append_nil] at hcalls h'
    rw [made, if_neg hnone]
    refine ⟨w', ?_, h'⟩
    rw [callChosen, if_neg hkeys, choices_of_one_worker hworkers]
    exact hcalls

/-- `Workload.run` ends `Underway` after all calls, with no slot left. -/
theorem run_eq (hcount : shop.count = plan.sessions) (hworkers : plan.workers = 1)
    (hclear : store.Clear shop.Owns) (hothers : store.contents = shop.others)
    (hwritable : Plan.Writable (past choose plan.calls)) :
    ∃ w, exec (run shop.surroundings plan choose) (opening store shop.now) =
        (.ok (plan.tally (made plan choose)), w) ∧
      Underway shop plan (made plan choose) w ∧ (plan.drain = true → w.cache.slots = []) := by
  obtain ⟨w₁, hcreate, h₁, hturnover⟩ :=
    (Shop.stocked_empty hclear hothers).createSessions rfl hcount.ge
  have hfirst : shop.shelf (firstBaskets plan.sessions) = shop.shelf fun n => plan.basket n [] :=
    Shop.shelf_congr fun n hn => if_pos (hcount ▸ hn)
  have hbegun : Underway shop plan [] w₁ :=
    ⟨hcount, hfirst ▸ h₁, hturnover.created.trans (Nat.zero_add _), hturnover.removed⟩
  obtain ⟨w₂, hcalls, h₂⟩ := callChosen_eq hbegun hworkers hwritable
  have hcalls' : exec (ExceptT.lift (callChosen shop.surroundings plan choose
      ((List.range plan.sessions).map shop.keys)) : Op Basket Nat Tally) w₁ =
      (.ok (plan.tally (made plan choose)), w₂) := by
    rw [exec_lift, hcalls]
  rw [run, exec_bind_ok hcreate, exec_bind_ok hcalls']
  cases hdrain : plan.drain with
  | false => exact ⟨w₂, rfl, h₂, fun hyes => by cases hyes⟩
  | true =>
    obtain ⟨report, w₃, hpassivate, h₃, hempty, hquiet⟩ := h₂.stocked.passivateAll
    refine ⟨w₃, ?_, ⟨hcount, h₃, hquiet.created.trans h₂.created,
      hquiet.removed.trans h₂.removed⟩, fun _ => hempty⟩
    rw [if_pos rfl, exec_bind_ok hpassivate]
    rfl

/-! ## Baskets afterwards, and completed calls -/

/-- `b` is the basket of `key`, in its slot or in its record. -/
inductive Found (w : World Basket Nat) (key : Key) (b : Basket) : Prop
  | resident {slot : Slot Basket} (hslot : w.cache.slot? key = some slot) (hready : slot.IsReady b)
  | stored {bytes : ByteArray} (hslot : w.cache.slot? key = none)
      (hrecord : w.store.contents key = some bytes)
      (hstate : Store.stateOf Basket.codec key bytes = .ok b)

theorem Found.unique {w : World Basket Nat} {key : Key} {b b' : Basket} (h : Found w key b)
    (h' : Found w key b') : b = b' := by
  cases h with
  | resident hslot hready =>
    cases h' with
    | resident hslot' hready' =>
      obtain rfl := Option.some.inj (hslot.symm.trans hslot')
      exact Option.some.inj (hready.payload.symm.trans hready'.payload)
    | stored hslot' => cases hslot.symm.trans hslot'
  | stored hslot hrecord hstate =>
    cases h' with
    | resident hslot' => cases hslot.symm.trans hslot'
    | stored _ hrecord' hstate' =>
      obtain rfl := Option.some.inj (hrecord.symm.trans hrecord')
      exact Except.ok.inj (hstate.symm.trans hstate')

theorem found_of_stocked {shelf : Shelf} {w : World Basket Nat} {key : Key} {b : Basket}
    (h : shop.Stocked none shelf w) (hshelf : shelf key = some b) : Found w key b := by
  cases hslot : w.cache.slot? key with
  | none =>
    obtain ⟨hrecord, hfits, -⟩ := h.away (by simp) hshelf hslot
    exact .stored hslot hrecord (Basket.stateOf_record hfits shop.early shop.late)
  | some slot =>
    obtain ⟨b', hb', hready, -⟩ := h.ready (by simp) hslot
    obtain rfl := Option.some.inj (hb'.symm.trans hshelf)
    exact .resident hslot hready

/-- `tally.completed` after `calls` calls. -/
def completedAfter (s : Surroundings Basket String Nat) (plan : Plan) (choose : Nat → Nat → Choice)
    (w : World Basket Nat) (calls : Nat) : Nat :=
  match (exec (run s { plan with calls } choose) w).1 with
  | .ok tally => tally.completed
  | .error _ => 0

/-- The calls to session `n` by which `tally.completed` goes up. -/
def completedOn (s : Surroundings Basket String Nat) (plan : Plan) (choose : Nat → Nat → Choice)
    (w : World Basket Nat) (n : Nat) : Nat :=
  (List.range plan.calls).countP fun i =>
    plan.target (choose 0 i) = n ∧
      completedAfter s plan choose w (i + 1) = completedAfter s plan choose w i + 1

theorem tally_calls (plan : Plan) (calls : Nat) (past : List Choice) :
    Plan.tally { plan with calls } past = plan.tally past := by
  induction past with
  | nil => rfl
  | cons c past ih =>
    simp only [Plan.tally, ih]
    rfl

theorem mem_past {calls : Nat} {c : Choice} :
    c ∈ past choose calls ↔ ∃ i < calls, choose 0 i = c := by
  simp [past]

theorem gone_past_mono {n i calls : Nat} (hi : i ≤ calls) (h : plan.Gone n (past choose i)) :
    plan.Gone n (past choose calls) := by
  induction calls, hi using Nat.le_induction with
  | base => exact h
  | succ calls _ ih =>
    rw [past_succ]
    exact ih.cons _

@[simp] theorem length_past (choose : Nat → Nat → Choice) (calls : Nat) :
    (past choose calls).length = calls := by
  simp [past]

theorem writable_past (hcalls : plan.calls < twoTo 64)
    (hitems : ∀ i < plan.calls, (choose 0 i).item.Fits) {calls : Nat} (h : calls ≤ plan.calls) :
    Plan.Writable (past choose calls) where
  calls := by
    rw [length_past]
    exact h.trans_lt hcalls
  items c hc := by
    obtain ⟨i, hi, rfl⟩ := mem_past.mp hc
    exact hitems i (hi.trans_le h)

section Completed

variable (hcount : shop.count = plan.sessions) (hworkers : plan.workers = 1)
  (hclear : store.Clear shop.Owns) (hothers : store.contents = shop.others)
  (hcalls : plan.calls < twoTo 64) (hitems : ∀ i < plan.calls, (choose 0 i).item.Fits)

include hcount hworkers hclear hothers hcalls hitems

theorem completedAfter_eq (hpos : 0 < plan.sessions) {calls : Nat} (h : calls ≤ plan.calls) :
    completedAfter shop.surroundings plan choose
        (opening store shop.now) calls =
      (plan.tally (past choose calls)).completed := by
  obtain ⟨w, hrun, -⟩ := @run_eq shop { plan with calls } choose store hcount hworkers hclear
    hothers (writable_past hcalls hitems h)
  have hmade : made { plan with calls } choose = past choose calls := if_neg hpos.ne'
  rw [completedAfter, hrun, hmade, tally_calls]

/-- Of a session that is not `Gone` every call is completed. -/
theorem completedOn_eq {n : Nat} (hn : n < plan.sessions)
    (hkept : ¬plan.Gone n (past choose plan.calls)) :
    completedOn shop.surroundings plan choose
        (opening store shop.now) n =
      (plan.callsTo n (past choose plan.calls)).length := by
  have hpos : 0 < plan.sessions := Nat.zero_lt_of_lt hn
  have heach : ∀ i ∈ List.range plan.calls, decide (plan.target (choose 0 i) = n ∧
      completedAfter shop.surroundings plan choose (opening store shop.now) (i + 1) =
        completedAfter shop.surroundings plan choose (opening store shop.now) i + 1) = true ↔
      decide (plan.target (choose 0 i) = n) = true := by
    intro i hi
    have hlt : i < plan.calls := List.mem_range.mp hi
    rw [completedAfter_eq hcount hworkers hclear hothers hcalls hitems hpos hlt,
      completedAfter_eq hcount hworkers hclear hothers hcalls hitems hpos hlt.le, past_succ,
      decide_eq_true_iff, decide_eq_true_iff, and_iff_left_iff_imp]
    rintro rfl
    exact Plan.completed_cons fun hgone => hkept (gone_past_mono hlt.le hgone)
  rw [completedOn, List.countP_congr heach, Plan.callsTo, past, List.filter_reverse,
    List.length_reverse, ← List.countP_eq_length_filter, List.countP_map]
  rfl

end Completed

/-! ## Nothing is lost -/

/-- What `Workload.run` does between the worlds `before` and `after`. -/
structure Lossless (s : Surroundings Basket String Nat) (keys : Nat → Key) (plan : Plan)
    (choose : Nat → Nat → Choice) (before : World Basket Nat) (tally : Tally)
    (after : World Basket Nat) : Prop where
  inUse : tally.inUse = 0
  capacity : tally.capacity = 0
  failed : tally.failed = 0
  calls : tally.completed + tally.notFound = if plan.sessions = 0 then 0 else plan.calls
  created : (Stats.ofCache s.settings after.cache).counters.created = plan.sessions
  removed : (Stats.ofCache s.settings after.cache).counters.removed = tally.removed
  /-- `removed` is the number of sessions that are `Gone`. -/
  removals : tally.removed = (plan.removedSessions (past choose plan.calls)).card
  /-- The basket of a session that is not `Gone` has the items of exactly the calls to it, and
  counts them. -/
  kept : ∀ n < plan.sessions, ¬plan.Gone n (past choose plan.calls) →
    ∃ b, Found after (keys n) b ∧ b.calls = completedOn s plan choose before n ∧
      b.items.length = completedOn s plan choose before n ∧
      b.items = (plan.callsTo n (past choose plan.calls)).map (·.item)
  /-- A session that is `Gone` has neither slot nor record. -/
  gone : ∀ n < plan.sessions, plan.Gone n (past choose plan.calls) →
    after.cache.slot? (keys n) = none ∧ after.store.contents (keys n) = none
  /-- If no session is `Gone`, the calls in the baskets add up to `tally.completed`. -/
  total : (∀ n < plan.sessions, ¬plan.Gone n (past choose plan.calls)) →
    ∀ baskets : Nat → Basket, (∀ n < plan.sessions, Found after (keys n) (baskets n)) →
      ∑ n ∈ Finset.range plan.sessions, (baskets n).calls = tally.completed
  others : ∀ key, (∀ n < plan.sessions, keys n ≠ key) →
    after.cache.slot? key = none ∧ after.store.contents key = before.store.contents key
  drained : plan.drain = true → after.cache.slots = [] ∧
    ∀ key, (after.store.contents key).isSome ↔ (before.store.contents key).isSome ∨
      ∃ n < plan.sessions, ¬plan.Gone n (past choose plan.calls) ∧ keys n = key

theorem made_of_pos (hpos : 0 < plan.sessions) : made plan choose = past choose plan.calls :=
  if_neg hpos.ne'

theorem length_made (plan : Plan) (choose : Nat → Nat → Choice) :
    (made plan choose).length = if plan.sessions = 0 then 0 else plan.calls := by
  rw [made]
  split
  · rfl
  · exact length_past choose plan.calls

theorem removed_made (plan : Plan) (choose : Nat → Nat → Choice) :
    (plan.tally (made plan choose)).removed =
      (plan.removedSessions (past choose plan.calls)).card := by
  by_cases hnone : plan.sessions = 0
  · rw [made, if_pos hnone, Plan.removedSessions, hnone]
    rfl
  · have hpos : 0 < plan.sessions := Nat.pos_of_ne_zero hnone
    rw [made_of_pos hpos, Plan.tally_removed hpos]

section Afterwards

variable {w : World Basket Nat} {n : Nat} (h : Underway shop plan (made plan choose) w)

include h

theorem shelf_made (hn : n < plan.sessions) :
    shop.shelf (fun n => plan.basket n (made plan choose)) (shop.keys n) =
      plan.basket n (past choose plan.calls) := by
  rw [Shop.shelf_keys (h.count ▸ hn), made_of_pos (Nat.zero_lt_of_lt hn)]

theorem found_filled (hn : n < plan.sessions) (hkept : ¬plan.Gone n (past choose plan.calls)) :
    Found w (shop.keys n) (plan.filled n (past choose plan.calls)) :=
  found_of_stocked h.stocked ((shelf_made h hn).trans (Plan.basket_of_kept hkept))

theorem missing_of_gone (hn : n < plan.sessions) (hgone : plan.Gone n (past choose plan.calls)) :
    w.cache.slot? (shop.keys n) = none ∧ w.store.contents (shop.keys n) = none := by
  rw [← shop.fresh n (h.count ▸ hn)]
  exact h.stocked.missing (by simp) ((shelf_made h hn).trans (Plan.basket_of_gone hgone))

theorem unchanged_of_other {key : Key} (hkey : ∀ n < plan.sessions, shop.keys n ≠ key) :
    w.cache.slot? key = none ∧ w.store.contents key = shop.others key :=
  h.stocked.missing (by simp)
    (Shop.shelf_of_not_owns (fun ⟨n, hn, hn'⟩ => hkey n (h.count ▸ hn) hn') _)

/-- If no session is `Gone`, the calls in the baskets add up to all calls. -/
theorem sum_calls (hkept : ∀ n < plan.sessions, ¬plan.Gone n (past choose plan.calls))
    {baskets : Nat → Basket} (hbaskets : ∀ n < plan.sessions, Found w (shop.keys n) (baskets n)) :
    ∑ n ∈ Finset.range plan.sessions, (baskets n).calls =
      (plan.tally (made plan choose)).completed := by
  by_cases hnone : plan.sessions = 0
  · rw [made, if_pos hnone, hnone]
    rfl
  · have hpos : 0 < plan.sessions := Nat.pos_of_ne_zero hnone
    have heach : ∀ n ∈ Finset.range plan.sessions,
        (baskets n).calls = (plan.callsTo n (past choose plan.calls)).length := fun n hn => by
      have hn' : n < plan.sessions := Finset.mem_range.mp hn
      rw [(hbaskets n hn').unique (found_filled h hn' (hkept n hn'))]
      rfl
    rw [Finset.sum_congr rfl heach, Plan.sum_length_callsTo hpos, made_of_pos hpos,
      Plan.completed_of_kept hpos hkept]

/-- With no slot left, the store has the records of others, and one for each session that is not
`Gone`. -/
theorem isSome_contents (hempty : w.cache.slots = []) (key : Key) :
    (w.store.contents key).isSome ↔ (shop.others key).isSome ∨
      ∃ n < plan.sessions, ¬plan.Gone n (past choose plan.calls) ∧ shop.keys n = key := by
  by_cases howned : ∃ n < plan.sessions, shop.keys n = key
  · obtain ⟨n, hn, rfl⟩ := howned
    have hfresh := shop.fresh n (h.count ▸ hn)
    have hinj : ∀ m < plan.sessions, shop.keys m = shop.keys n → m = n := fun m hm =>
      shop.keys_inj m (h.count ▸ hm) n (h.count ▸ hn)
    by_cases hgone : plan.Gone n (past choose plan.calls)
    · rw [(missing_of_gone h hn hgone).2, hfresh]
      refine ⟨fun hsome => .inl hsome, ?_⟩
      rintro (hsome | ⟨m, hm, hkept, hkeys⟩)
      · exact hsome
      · exact absurd (hinj m hm hkeys ▸ hgone) hkept
    · refine ⟨fun _ => .inr ⟨n, hn, hgone, rfl⟩, fun _ => ?_⟩
      cases found_filled h hn hgone with
      | resident hslot =>
        rw [Cache.slot?, hempty] at hslot
        cases hslot
      | stored _ hrecord =>
        rw [hrecord]
        rfl
  · have hnone : ∀ n < plan.sessions, shop.keys n ≠ key := fun n hn hkey => howned ⟨n, hn, hkey⟩
    rw [(unchanged_of_other h hnone).2]
    refine ⟨.inl, ?_⟩
    rintro (hsome | ⟨n, hn, -, hkey⟩)
    · exact hsome
    · exact absurd hkey (hnone n hn)

end Afterwards

/-- `Workload.run` with one worker is `Lossless`: for every `choose`, every `maxSize ≥ 1`, and every
store with other records. The bounds are those of the 64-bit count of calls and of the 32-bit
quantity of an item. -/
theorem lossless (settings : Settings) (keys : Nat → Key) (plan : Plan)
    (choose : Nat → Nat → Choice) (store : Store) (now : Instant) (hworkers : plan.workers = 1)
    (hroom : 0 < settings.maxSize) (hcalls : plan.calls < twoTo 64)
    (hitems : ∀ i < plan.calls, (choose 0 i).item.Fits)
    (hkeys : ∀ m < plan.sessions, ∀ n < plan.sessions, keys m = keys n → m = n)
    (hfresh : ∀ n < plan.sessions, store.contents (keys n) = none)
    (hclear : store.Clear fun key => ∃ n < plan.sessions, keys n = key)
    (hearly : .earliest ≤ now) (hlate : now ≤ .latest) :
    ∃ tally w, exec (run (surroundings settings keys) plan choose) (opening store now) =
        (.ok tally, w) ∧
      Lossless (surroundings settings keys) keys plan choose (opening store now) tally w := by
  let shop : Shop := ⟨settings, keys, plan.sessions, store.contents, now, hroom, hkeys, hfresh,
    hearly, hlate⟩
  have hcount : shop.count = plan.sessions := rfl
  have hothers : store.contents = shop.others := rfl
  obtain ⟨w, hrun, h, hempty⟩ := run_eq hcount hworkers hclear hothers
    (writable_past hcalls hitems le_rfl)
  have hunhindered := plan.unhindered_tally (made plan choose)
  refine ⟨plan.tally (made plan choose), w, hrun, {
    inUse := hunhindered.inUse
    capacity := hunhindered.capacity
    failed := hunhindered.failed
    calls := (plan.completed_add_notFound _).trans (length_made plan choose)
    created := h.created
    removed := h.removed
    removals := removed_made plan choose
    kept := fun n hn hkept => ⟨_, found_filled h hn hkept, ?_, ?_, rfl⟩
    gone := fun n hn => missing_of_gone h hn
    total := fun hkept baskets hbaskets => sum_calls h hkept hbaskets
    others := fun key => unchanged_of_other h
    drained := fun hdrain => ⟨hempty hdrain, isSome_contents h (hempty hdrain)⟩ }⟩
  · exact (completedOn_eq hcount hworkers hclear hothers hcalls hitems hn hkept).symm
  · exact (List.length_map _).trans
      (completedOn_eq hcount hworkers hclear hothers hcalls hitems hn hkept).symm

/-- Call `i` is to session `i`, and the second one ends with a removal. -/
def secondRemoves (_ call : Nat) : Choice where
  session := call
  item := { sku := "sku-1", quantity := 2 }
  roll := if call = 1 then 0 else 99

/-- A memory with one record of another session. -/
def storeOfOne : Store :=
  { Store.empty fun _ _ => none with
    backend := .memory { records := [⟨.ofNat 7, "earlier".toUTF8, ⟨0⟩⟩] } }

/-- The theorem applies to three sessions with room for one, and four calls of which one removes its
session. -/
theorem lossless_three :
    let plan : Plan :=
      { sessions := 3, workers := 1, calls := 4, removePercent := 50, drain := true }
    plan.workers = 1 ∧ (∀ n < 3, storeOfOne.contents (.ofNat n) = none) ∧
      ∃ tally w, exec (run (surroundings { maxSize := 1 } .ofNat) plan secondRemoves)
          (opening storeOfOne ⟨0⟩) = (.ok tally, w) ∧
        Lossless (surroundings { maxSize := 1 } .ofNat) .ofNat plan secondRemoves
          (opening storeOfOne ⟨0⟩) tally w := by
  have hfresh : ∀ n < 3, storeOfOne.contents (.ofNat n) = none := by decide
  refine ⟨rfl, hfresh, lossless _ _ _ _ _ _ rfl (by decide) (by decide) ?_ (by decide) hfresh
    ⟨fun _ _ => rfl, fun _ _ => trivial⟩ (by decide) (by decide)⟩
  intro i _
  exact (by decide : 2 < twoTo 32)

end Workload

end SessionCache
