import SessionCache.Proofs.Traffic.Keeping

/-!
# Surroundings exchanged

An operation depends on the callbacks only by what comes of a phase as a whole, and it shows them no
state while the session is in the store. Only sweeps and `Op.expirePassivated` ask for the removal
timeout. So callbacks can be exchanged for others that come to the same, and the removal timeout for
another one.

* `Lifecycle.Alike`: callbacks that come to the same.
* `Request.perform_exchanged`: no operation tells the difference.
-/

namespace SessionCache

variable {σ ι ω : Type} {s : Surroundings σ ι ω} {l : Lifecycle σ ι ω} {timeout : Option Duration}

/-- `l'` makes the same states as `l`, and `fire` is the same in every phase, where phases with
`isStored` are fired without a state. -/
structure Lifecycle.Alike (l l' : Lifecycle σ ι ω) : Prop where
  instantiate : l'.instantiate = l.instantiate
  fire : ∀ phase key state, (phase.isStored = true → state = none) →
    l'.fire phase key state = l.fire phase key state

theorem Lifecycle.Alike.refl (l : Lifecycle σ ι ω) : l.Alike l := ⟨rfl, fun _ _ _ _ => rfl⟩

/-- `s` with the lifecycle `l` and the removal timeout `timeout`. -/
def Surroundings.exchanged (s : Surroundings σ ι ω) (l : Lifecycle σ ι ω)
    (timeout : Option Duration) : Surroundings σ ι ω :=
  { s with lifecycle := l, settings := { s.settings with removalTimeout := timeout } }

theorem Op.lock_exchanged : Op.lock (s.exchanged l timeout) = Op.lock s := rfl

namespace Lifecycle.Alike

variable (h : s.lifecycle.Alike l)

include h

/-- `fire` in a phase with a state to show. -/
theorem fire_live (phase : Phase) (hlive : phase.isStored = false) (key : Key) (state : Option σ) :
    (s.exchanged l timeout).lifecycle.fire phase key state = s.lifecycle.fire phase key state :=
  h.fire phase key state fun hstored => nomatch hlive.symm.trans hstored

@[simp] theorem fire_none (phase : Phase) (key : Key) :
    (s.exchanged l timeout).lifecycle.fire phase key none = s.lifecycle.fire phase key none :=
  h.fire phase key none fun _ => rfl

/-! ## Operations -/

open Op

theorem takeBack (key : Key) (state : σ) (failure : CacheError) :
    Op.takeBack (s.exchanged l timeout) key state failure = Op.takeBack s key state failure := by
  rw [Op.takeBack, Op.takeBack, h.fire_live .postActivate rfl]

theorem moveOut (key : Key) : Op.moveOut (s.exchanged l timeout) key = Op.moveOut s key := by
  rw [Op.moveOut, Op.moveOut, seeOff, seeOff, h.fire_none]

theorem passivate (key : Key) : Op.passivate (s.exchanged l timeout) key = Op.passivate s key := by
  simp only [Op.passivate, h.fire_live .prePassivate rfl, h.takeBack, h.moveOut]
  rfl

theorem look (deadline : Deadline) :
    Op.look (s.exchanged l timeout) deadline = Op.look s deadline := by
  simp only [Op.look, h.passivate]
  rfl

theorem acquire (deadline : Deadline) (looks : Nat) :
    Op.acquire (s.exchanged l timeout) deadline looks = Op.acquire s deadline looks := by
  induction looks with
  | zero => rfl
  | succ looks ih =>
    rw [Op.acquire, Op.acquire, ih, h.look]
    rfl

theorem reserve : Op.reserve (s.exchanged l timeout) = Op.reserve s := by
  simp only [Op.reserve, h.acquire]
  rfl

theorem introduce (args : ι) : Op.introduce (s.exchanged l timeout) args = Op.introduce s args := by
  have hconstruct (key : Key) :
      construct (s.exchanged l timeout) key args = construct s key args := by
    simp only [construct, h.fire_live .postConstruct rfl]
    rw [show (s.exchanged l timeout).lifecycle.instantiate = _ from h.instantiate]
  simp only [Op.introduce, hconstruct]
  rfl

theorem load (key : Key) : Op.load (s.exchanged l timeout) key = Op.load s key := by
  simp only [Op.load, welcome, h.fire_none, h.fire_live .postActivate rfl]
  rfl

theorem settle (key : Key) : Op.settle (s.exchanged l timeout) key = Op.settle s key := by
  simp only [Op.settle, h.load, Op.lock_exchanged]

theorem checkOut (key : Key) : Op.checkOut (s.exchanged l timeout) key = Op.checkOut s key := by
  simp only [Op.checkOut, h.fire_live .preInvoke rfl, Op.lock_exchanged]

theorem getLooking (key : Key) (looks : Nat) :
    Op.getLooking (s.exchanged l timeout) key looks = Op.getLooking s key looks := by
  induction looks with
  | zero => rfl
  | succ looks ih => simp only [Op.getLooking, ih, activate, h.reserve, h.settle, h.checkOut]

theorem get (key : Key) : Op.get (s.exchanged l timeout) key = Op.get s key :=
  h.getLooking key s.patience

theorem destroy (key : Key) (state : Option σ) :
    Op.destroy (s.exchanged l timeout) key state = Op.destroy s key state := by
  rw [Op.destroy, Op.destroy, h.fire_live .preDestroy rfl]

theorem finish (key : Key) (state : σ) :
    Op.finish (s.exchanged l timeout) key state = Op.finish s key state := by
  simp only [Op.finish, regain, h.destroy, h.fire_live .postInvoke rfl, Op.lock_exchanged]

theorem removePassivated (key : Key) :
    Op.removePassivated (s.exchanged l timeout) key = Op.removePassivated s key := by
  simp only [Op.removePassivated, h.fire_live .preDestroy rfl]
  rfl

theorem removeLooking (key : Key) (looks : Nat) :
    Op.removeLooking (s.exchanged l timeout) key looks = Op.removeLooking s key looks := by
  induction looks with
  | zero => rfl
  | succ looks ih => simp only [Op.removeLooking, ih, h.removePassivated, h.destroy]

theorem remove (key : Key) : Op.remove (s.exchanged l timeout) key = Op.remove s key :=
  h.removeLooking key s.patience

theorem passivateCounting (key : Key) (report : SweepReport) :
    Op.passivateCounting (s.exchanged l timeout) key report = Op.passivateCounting s key report := by
  rw [Op.passivateCounting, Op.passivateCounting, h.passivate]

theorem sweepKeys (limit : Duration) (keys : List Key) (report : SweepReport) :
    Op.sweepKeys (s.exchanged l timeout) limit keys report = Op.sweepKeys s limit keys report := by
  induction keys generalizing report with
  | nil => rfl
  | cons key rest ih => simp only [Op.sweepKeys, ih, h.passivateCounting]

theorem passivateStays (stays : List (Key × Nat)) (report : SweepReport) :
    Op.passivateStays (s.exchanged l timeout) stays report = Op.passivateStays s stays report := by
  induction stays generalizing report with
  | nil => rfl
  | cons stay rest ih => simp only [Op.passivateStays, ih, h.passivateCounting]

end Lifecycle.Alike

/-- A request is performed in the same way with an `Alike` lifecycle, and with another removal
timeout unless it reads that. -/
theorem Request.perform_exchanged (h : s.lifecycle.Alike l) (request : Request σ ι)
    (ht : request.Ages → timeout = s.settings.removalTimeout) :
    request.perform (s.exchanged l timeout) = request.perform s := by
  cases request with
  | create args => rw [perform, perform, Op.create, Op.create, h.reserve, h.introduce]
  | get key => rw [perform, perform, h.get]
  | finish key state => rw [perform, perform, h.finish]
  | remove key => rw [perform, perform, h.remove]
  | sweep =>
    obtain rfl := ht trivial
    simp only [perform, Op.sweep, Op.sweepIdle, h.sweepKeys]
    rfl
  | passivateAll => simp only [perform, Op.passivateAll, h.passivateStays]
  | expirePassivated =>
    obtain rfl := ht trivial
    rfl
  | removeOnFinish | peek | contains => rfl

end SessionCache
