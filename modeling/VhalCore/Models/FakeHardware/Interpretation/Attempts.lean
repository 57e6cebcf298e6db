import VhalCore.Models.FakeHardware.Native.SetValue
import VhalCore.Models.PropertyStore.Interpretation.Validity

/-!
# Writes in sequence

A call of the hardware attempts some writes, one after the other and each with a time that
is not before the earlier ones. A `Board` is what such writes change: the store and the
callbacks that ran. Since the times ascend, earlier writes of the sequence do not stand
against later ones: whether a write of the sequence succeeds can be told from the store
before the first one.
-/

namespace VhalCore.FakeHardware

open PropertyStore VehiclePropertyStore

/-- The store and the callbacks that ran. -/
structure Board where
  store : VehiclePropertyStore
  emitted : List ChangeCallback

/-- A store in which every changed record has a value that is not after a time, and had none
after it before. -/
structure Advances (t : Int) (a b : VehiclePropertyStore) : Prop where
  registration : ∀ propId, b.registration propId = a.registration propId
  callback : b.mOnValuesChangeCallback = a.mOnValuesChangeCallback
  stored : ∀ propId recId, b.stored propId recId = a.stored propId recId ∨
    (∃ new, b.stored propId recId = some new ∧ new.timestamp ≤ t) ∧
      ∀ old, a.stored propId recId = some old → old.timestamp ≤ t

namespace Advances

variable {t u : Int} {a b c : VehiclePropertyStore} {v : VehiclePropValue}

theorem refl (t : Int) (a : VehiclePropertyStore) : Advances t a a :=
  ⟨fun _ => rfl, rfl, fun _ _ => Or.inl rfl⟩

theorem mono (h : Advances t a b) (htu : t ≤ u) : Advances u a b := by
  refine ⟨h.registration, h.callback, fun propId recId => (h.stored propId recId).imp_right ?_⟩
  rintro ⟨⟨new, hnew, hle⟩, hold⟩
  exact ⟨⟨new, hnew, hle.trans htu⟩, fun old ho => (hold old ho).trans htu⟩

/-- Two advances up to a time make one. -/
theorem trans (h₁ : Advances t a b) (h₂ : Advances t b c) : Advances t a c := by
  refine ⟨fun propId => (h₂.registration propId).trans (h₁.registration propId),
    h₂.callback.trans h₁.callback, fun propId recId => ?_⟩
  rcases h₁.stored propId recId with hab | hab
  · rw [← hab]
    exact h₂.stored propId recId
  · rcases h₂.stored propId recId with hbc | hbc
    · rw [hbc]
      exact Or.inr hab
    · exact Or.inr ⟨hbc.1, hab.2⟩

/-- The write of a value that is not before the time succeeds in both stores or in none. -/
theorem writable_iff (h : Advances t a b) (hv : t ≤ v.timestamp) :
    b.Writable v ↔ a.Writable v := by
  have hreg := h.registration v.prop
  have hid := recordIdOf_congr hreg
  have hregistered := isRegistered_congr hreg
  have harea : b.LacksAreaConfig v ↔ a.LacksAreaConfig v := lacksAreaConfig_congr hreg rfl rfl
  have hout : b.IsOutdated v ↔ a.IsOutdated v := by
    rw [IsOutdated, IsOutdated, storedFor, storedFor, hid]
    rcases a.recordIdOf v with _ | recId
    · rfl
    · simp only [Option.bind_some]
      rcases h.stored v.prop recId with heq | ⟨⟨new, hnew, hle⟩, hold⟩
      · rw [heq]
      · constructor
        · rintro ⟨x, hx, hlt⟩
          cases hnew.symm.trans hx
          omega
        · rintro ⟨x, hx, hlt⟩
          have := hold x hx
          omega
  constructor
  · intro hw
    exact ⟨hregistered.mp hw.registered, mt harea.mpr hw.area, mt hout.mpr hw.current⟩
  · intro hw
    exact ⟨hregistered.mpr hw.registered, mt harea.mp hw.area, mt hout.mp hw.current⟩

/-- A write of a writable value. -/
theorem put {w : VehiclePropValue} (hv : a.Writable v) (hw : w.timestamp = v.timestamp) :
    Advances v.timestamp a (a.put v w) := by
  refine ⟨registration_put a v w, ?_, fun propId recId => ?_⟩
  · unfold VehiclePropertyStore.put
    split <;> rfl
  · rw [stored_put hv.registered]
    split
    · rename_i hkey
      refine Or.inr ⟨⟨w, rfl, hw.le⟩, fun old hold => ?_⟩
      by_contra hlt
      refine hv.current ⟨old, ?_, not_le.mp hlt⟩
      rw [storedFor, hkey.2, Option.bind_some, ← hkey.1, hold]
    · exact Or.inl rfl

end Advances

namespace Board

/-- A write of a value that has its time. -/
def write (v : VehiclePropValue) (updateStatus : Bool) (eventMode : PropertyStore.EventMode)
    (b : Board) : Except SetValueError Unit × Board :=
  let (result, callbacks, store) := b.store.writeValue 0 v updateStatus eventMode false
  (result.mapError .write, ⟨store, b.emitted ++ callbacks⟩)

/-- Every write is attempted, and failures are ignored. -/
def attemptAll : List VehiclePropValue → Board → Board
  | [], b => b
  | w :: ws, b => attemptAll ws (b.write w true .always).2

/-- The first failure ends the sequence. -/
def attemptUntil : List VehiclePropValue → Board → Except SetValueError Unit × Board
  | [], b => (.ok (), b)
  | w :: ws, b =>
      match b.write w true .always with
      | (.ok (), b) => attemptUntil ws b
      | (.error e, b) => (.error e, b)

variable {b : Board} {v : VehiclePropValue}

/-- A write of a writable value succeeds, with its callbacks. -/
theorem write_of_writable (h : b.store.Writable v) (updateStatus : Bool)
    (eventMode : PropertyStore.EventMode) :
    b.write v updateStatus eventMode = (.ok (), ⟨b.store.put v (b.store.written updateStatus v),
      b.emitted ++ b.store.callbacksOf updateStatus eventMode v⟩) := by
  have hstamp : b.store.Writable (stamp 0 false v) := h
  unfold write
  rw [writeValue_of_writable hstamp]
  rfl

/-- A write of any other value fails and changes nothing. -/
theorem write_of_not_writable (h : ¬b.store.Writable v) (updateStatus : Bool)
    (eventMode : PropertyStore.EventMode) :
    ∃ e, b.write v updateStatus eventMode = (.error e, b) := by
  have hstamp : ¬b.store.Writable (stamp 0 false v) := h
  obtain ⟨e, he⟩ := writeValue_of_not_writable hstamp updateStatus eventMode
  refine ⟨.write e, ?_⟩
  unfold write
  rw [he]
  simp only [List.append_nil]
  rfl

/-- A write that succeeds in a mode that asks for it is announced. -/
theorem emitted_ne (hcallback : b.store.mOnValuesChangeCallback = true) (updateStatus : Bool)
    (v : VehiclePropValue) : b.store.callbacksOf updateStatus .always v ≠ [] := by
  simp [callbacksOf, invokeCallbacks, hcallback]

/-- A write advances the store up to its own timestamp. -/
theorem write_advances (updateStatus : Bool) (eventMode : PropertyStore.EventMode) (b : Board)
    (v : VehiclePropValue) :
    Advances v.timestamp b.store (b.write v updateStatus eventMode).2.store := by
  by_cases h : b.store.Writable v
  · rw [write_of_writable h]
    exact .put h rfl
  · obtain ⟨e, he⟩ := write_of_not_writable h updateStatus eventMode
    rw [he]
    exact .refl _ _

theorem write_emitted (updateStatus : Bool) (eventMode : PropertyStore.EventMode) (b : Board)
    (v : VehiclePropValue) : b.emitted <+: (b.write v updateStatus eventMode).2.emitted :=
  List.prefix_append _ _

/-- Attempts advance the store up to the last timestamp. -/
theorem attemptAll_advances {ws : List VehiclePropValue} {t : Int} (b : Board)
    (hws : ∀ w ∈ ws, w.timestamp ≤ t) : Advances t b.store (attemptAll ws b).store := by
  induction ws generalizing b with
  | nil => exact .refl t _
  | cons w ws ih =>
      have hfirst := (write_advances true .always b w).mono (hws w (List.mem_cons_self ..))
      exact hfirst.trans (ih _ fun x hx => hws x (List.mem_cons_of_mem _ hx))

theorem attemptAll_callback (ws : List VehiclePropValue) (b : Board) :
    (attemptAll ws b).store.mOnValuesChangeCallback = b.store.mOnValuesChangeCallback := by
  induction ws generalizing b with
  | nil => rfl
  | cons w ws ih => exact (ih _).trans (write_advances true .always b w).callback

theorem attemptAll_emitted (ws : List VehiclePropValue) (b : Board) :
    b.emitted <+: (attemptAll ws b).emitted := by
  induction ws generalizing b with
  | nil => exact List.prefix_refl _
  | cons w ws ih => exact (write_emitted true .always b w).trans (ih _)

/-- Attempts leave the board as it is exactly if none of them can succeed. -/
theorem attemptAll_eq_self_iff {ws : List VehiclePropValue}
    (hcallback : b.store.mOnValuesChangeCallback = true) :
    attemptAll ws b = b ↔ ∀ w ∈ ws, ¬b.store.Writable w := by
  induction ws with
  | nil => simp [attemptAll]
  | cons w ws ih =>
      rw [attemptAll, List.forall_mem_cons]
      by_cases h : b.store.Writable w
      · refine iff_of_false (fun heq => ?_) fun hall => hall.1 h
        have hgrown := attemptAll_emitted ws (b.write w true .always).2
        rw [heq, write_of_writable h] at hgrown
        have hlen := hgrown.length_le
        have hpos := List.length_pos_iff.mpr (emitted_ne hcallback true w)
        simp only [List.length_append] at hlen
        omega
      · obtain ⟨e, he⟩ := write_of_not_writable h true .always
        rw [he, ih]
        exact (and_iff_right h).symm

theorem attemptUntil_cons_of_writable {w : VehiclePropValue} {ws : List VehiclePropValue}
    (h : b.store.Writable w) :
    attemptUntil (w :: ws) b = attemptUntil ws (b.write w true .always).2 := by
  rw [attemptUntil, write_of_writable h]

/-- Attempts with ascending times succeed if each could on the first board. -/
theorem attemptUntil_of_forall_writable {ws : List VehiclePropValue}
    (hsorted : ws.Pairwise fun a b => a.timestamp ≤ b.timestamp)
    (hws : ∀ w ∈ ws, b.store.Writable w) :
    attemptUntil ws b = (.ok (), attemptAll ws b) := by
  induction ws generalizing b with
  | nil => rfl
  | cons w ws ih =>
      obtain ⟨hle, hrest⟩ := List.pairwise_cons.mp hsorted
      rw [attemptUntil_cons_of_writable (hws w (List.mem_cons_self ..)), attemptAll]
      refine ih hrest fun x hx => ?_
      rw [(write_advances true .always b w).writable_iff (hle x hx)]
      exact hws x (List.mem_cons_of_mem _ hx)

/-- Attempts with ascending times end at the first one that could not succeed on the first
board. -/
theorem attemptUntil_of_not_writable {ws : List VehiclePropValue} {x : VehiclePropValue}
    (rest : List VehiclePropValue)
    (hsorted : (ws ++ [x]).Pairwise fun a b => a.timestamp ≤ b.timestamp)
    (hws : ∀ w ∈ ws, b.store.Writable w) (hx : ¬b.store.Writable x) :
    ∃ e, attemptUntil (ws ++ x :: rest) b = (.error e, attemptAll ws b) := by
  induction ws generalizing b with
  | nil =>
      obtain ⟨e, he⟩ := write_of_not_writable hx true .always
      exact ⟨e, by rw [List.nil_append, attemptUntil, he]; rfl⟩
  | cons w ws ih =>
      obtain ⟨hle, hrest⟩ := List.pairwise_cons.mp hsorted
      rw [List.cons_append, attemptUntil_cons_of_writable (hws w (List.mem_cons_self ..)),
        attemptAll]
      have hadv := write_advances true .always b w
      refine ih hrest (fun y hy => ?_) ?_
      · rw [hadv.writable_iff (hle y (List.mem_append_left _ hy))]
        exact hws y (List.mem_cons_of_mem _ hy)
      · rw [hadv.writable_iff (hle x (List.mem_append_right _ (List.mem_singleton_self x)))]
        exact hx

/-- The writes before the first one that cannot succeed. -/
theorem exists_first_not_writable {store : VehiclePropertyStore} {ws : List VehiclePropValue}
    (h : ¬∀ w ∈ ws, store.Writable w) :
    ∃ before x rest, ws = before ++ x :: rest ∧ (∀ w ∈ before, store.Writable w) ∧
      ¬store.Writable x := by
  induction ws with
  | nil => exact absurd (by simp) h
  | cons w ws ih =>
      by_cases hw : store.Writable w
      · obtain ⟨before, x, rest, rfl, hbefore, hx⟩ :=
          ih fun hall => h (List.forall_mem_cons.mpr ⟨hw, hall⟩)
        exact ⟨w :: before, x, rest, rfl, List.forall_mem_cons.mpr ⟨hw, hbefore⟩, hx⟩
      · exact ⟨[], w, ws, rfl, by simp, hw⟩

/-- Attempts of which one could not succeed on the first board. -/
theorem attemptUntil_of_not_forall {ws : List VehiclePropValue}
    (hsorted : ws.Pairwise fun a b => a.timestamp ≤ b.timestamp)
    (h : ¬∀ w ∈ ws, b.store.Writable w) :
    ∃ before x rest e, ws = before ++ x :: rest ∧ (∀ w ∈ before, b.store.Writable w) ∧
      ¬b.store.Writable x ∧ attemptUntil ws b = (.error e, attemptAll before b) := by
  obtain ⟨before, x, rest, rfl, hbefore, hx⟩ := exists_first_not_writable h
  have hprefix : (before ++ [x]).Sublist (before ++ x :: rest) :=
    List.Sublist.append_left (List.singleton_sublist.mpr (List.mem_cons_self ..)) _
  obtain ⟨e, he⟩ := attemptUntil_of_not_writable rest (hsorted.sublist hprefix) hbefore hx
  exact ⟨before, x, rest, e, rfl, hbefore, hx, he⟩

end Board

end VhalCore.FakeHardware
