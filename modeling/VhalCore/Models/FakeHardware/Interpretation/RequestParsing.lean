import VhalCore.Models.FakeHardware.Native.UserHalHelper

/-!
# Rules for parsings that size lists

A parsing that decides a layout either returns the one value of the layout or ends with an
error of its own, and gives no size to a list. A parsing that sizes a list does the same as
long as the size keeps to a limit, and gives a size beyond the limit otherwise. The rules
follow the parsings.
-/

namespace VhalCore.FakeHardware.UserHalHelper

universe u

section Outcome

variable {α β : Type}

/-- The outcome of a parsing, and the sizes given to lists up to its end. -/
def outcome (parse : Parse α) (sizes : List Nat) : Except Failure α × List Nat :=
  parse.run.run sizes

/-- A sequence whose first part succeeds goes on with the second. -/
theorem outcome_bind_ok {m : Parse α} {f : α → Parse β} {sizes sizes' : List Nat} {a : α}
    (h : outcome m sizes = (.ok a, sizes')) : outcome (m >>= f) sizes = outcome (f a) sizes' := by
  change outcome (ExceptT.mk _) sizes = _
  have hrun : (m : List Nat → Except Failure α × List Nat) sizes = (.ok a, sizes') := h
  change (match (m : List Nat → Except Failure α × List Nat) sizes with
    | (r, s) => (ExceptT.bindCont f r : List Nat → Except Failure β × List Nat) s) = _
  rw [hrun]
  rfl

/-- A sequence whose first part fails stops there. -/
theorem outcome_bind_error {m : Parse α} {f : α → Parse β} {sizes sizes' : List Nat}
    {e : Failure} (h : outcome m sizes = (.error e, sizes')) :
    outcome (m >>= f) sizes = (.error e, sizes') := by
  have hrun : (m : List Nat → Except Failure α × List Nat) sizes = (.error e, sizes') := h
  change (match (m : List Nat → Except Failure α × List Nat) sizes with
    | (r, s) => (ExceptT.bindCont f r : List Nat → Except Failure β × List Nat) s) = _
  rw [hrun]
  rfl

/-- A context changes the error of a refusal. -/
theorem outcome_inContext {context : RequestError → RequestError} {m : Parse α}
    {sizes : List Nat} :
    outcome (inContext context m) sizes =
      match outcome m sizes with
      | (.error (.invalid error), sizes) => (.error (.invalid (context error)), sizes)
      | result => result := rfl

/-- A context leaves the sizes of the vectors. -/
theorem outcome_inContext_snd {context : RequestError → RequestError} {m : Parse α}
    {sizes : List Nat} : (outcome (inContext context m) sizes).2 = (outcome m sizes).2 := by
  rw [outcome_inContext]
  split
  · next h => rw [h]
  · rfl

end Outcome

/-- The parsing returns the value of the layout, or ends with an error if there is none. -/
def Settles {α : Type} (parse : Parse α) (Layout : α → Prop) (sizes sizes' : List Nat) : Prop :=
  (∃ a, (∀ b, Layout b ↔ b = a) ∧ outcome parse sizes = (.ok a, sizes')) ∨
    (∀ b, ¬ Layout b) ∧ ∃ e, outcome parse sizes = (.error (.invalid e), sizes')

/-- The parsing gives no size to a list. -/
structure Decides {α : Type} (parse : Parse α) (Layout : α → Prop) : Prop where
  run : ∀ sizes, Settles parse Layout sizes sizes

/-- The parsing keeps to the limit if it is safe, and exceeds it otherwise. -/
structure Parses {α : Type} (parse : Parse α) (Layout : α → Prop) (limit : Nat) (Safe : Prop) :
    Prop where
  safe : Safe → ∀ sizes, ∃ new, (∀ n ∈ new, n ≤ limit) ∧
    Settles parse Layout sizes (sizes ++ new)
  exceeds : ¬ Safe → ∀ sizes, ∃ result new n, limit < n ∧ n ∈ new ∧
    outcome parse sizes = (result, sizes ++ new)

section Settles

variable {α β : Type} {m : Parse α} {L L' : α → Prop} {sizes sizes' sizes'' : List Nat}

theorem Settles.congr (h : Settles m L sizes sizes') (hl : ∀ a, L a ↔ L' a) :
    Settles m L' sizes sizes' := by
  have heq : L = L' := funext fun a => propext (hl a)
  rwa [← heq]

/-- A sequence settles what both of its parts settle. -/
theorem Settles.bind {f : α → Parse β} {M : α → β → Prop} (h : Settles m L sizes sizes')
    (hf : ∀ a, L a → Settles (f a) (M a) sizes' sizes'')
    (heq : (∀ a, ¬ L a) → sizes' = sizes'') :
    Settles (m >>= f) (fun b => ∃ a, L a ∧ M a b) sizes sizes'' := by
  rcases h with ⟨a, ha, hrun⟩ | ⟨hnone, e, hrun⟩
  · have hlayout : ∀ b, (∃ a', L a' ∧ M a' b) ↔ M a b := by
      intro b
      constructor
      · rintro ⟨a', ha', hb⟩
        rwa [(ha a').mp ha'] at hb
      · exact fun hb => ⟨a, (ha a).mpr rfl, hb⟩
    rcases hf a ((ha a).mpr rfl) with ⟨b, hb, hfrun⟩ | ⟨hb, e, hfrun⟩
    · exact Or.inl ⟨b, fun b' => (hlayout b').trans (hb b'), (outcome_bind_ok hrun).trans hfrun⟩
    · exact Or.inr ⟨fun b' h => hb b' ((hlayout b').mp h), e, (outcome_bind_ok hrun).trans hfrun⟩
  · refine Or.inr ⟨?_, e, ?_⟩
    · rintro b ⟨a, ha, -⟩
      exact hnone a ha
    · rw [outcome_bind_error hrun, heq hnone]

/-- A context settles the same. -/
theorem Settles.inContext {context : RequestError → RequestError}
    (h : Settles m L sizes sizes') : Settles (inContext context m) L sizes sizes' := by
  rcases h with ⟨a, ha, hrun⟩ | ⟨hnone, e, hrun⟩
  · refine Or.inl ⟨a, ha, ?_⟩
    rw [outcome_inContext, hrun]
  · refine Or.inr ⟨hnone, context e, ?_⟩
    rw [outcome_inContext, hrun]

end Settles

namespace Decides

variable {α β : Type} {m : Parse α} {L L' : α → Prop}

theorem congr (h : Decides m L) (hl : ∀ a, L a ↔ L' a) : Decides m L' :=
  ⟨fun sizes => (h.run sizes).congr hl⟩

theorem pure (a : α) : Decides (Pure.pure a : Parse α) (· = a) :=
  ⟨fun _ => Or.inl ⟨a, fun _ => Iff.rfl, rfl⟩⟩

theorem invalid (e : RequestError) : Decides (invalid e : Parse α) fun _ => False :=
  ⟨fun _ => Or.inr ⟨fun _ h => h, e, rfl⟩⟩

theorem bind {f : α → Parse β} {M : α → β → Prop} (h : Decides m L)
    (hf : ∀ a, L a → Decides (f a) (M a)) :
    Decides (m >>= f) fun b => ∃ a, L a ∧ M a b :=
  ⟨fun sizes => (h.run sizes).bind (fun a ha => (hf a ha).run sizes) fun _ => rfl⟩

/-- A context decides the same. -/
theorem inContext {context : RequestError → RequestError} (h : Decides m L) :
    Decides (inContext context m) L :=
  ⟨fun sizes => (h.run sizes).inContext⟩

/-- The entries of a list are decided one by one. -/
theorem parseEach {parse : Nat → Parse α} {E : Nat → α → Prop} (entry count : Nat)
    (h : ∀ i, entry ≤ i → i < entry + count → Decides (parse i) (E i)) :
    Decides (parseEach parse entry count) fun xs =>
      xs.length = count ∧ ∀ i x, xs[i]? = some x → E (entry + i) x := by
  induction count generalizing entry with
  | zero =>
      refine (Decides.pure []).congr fun xs => ⟨?_, fun hx => List.length_eq_zero_iff.mp hx.1⟩
      rintro rfl
      exact ⟨rfl, fun i x hx => by simp at hx⟩
  | succ count ih =>
      have hfirst := h entry (le_refl _) (by omega)
      have hrest := ih (entry + 1) fun i hi hlt => h i (by omega) (by omega)
      refine (hfirst.bind fun first _ => hrest.bind fun rest _ => Decides.pure _).congr
        fun xs => ⟨?_, ?_⟩
      · rintro ⟨first, hfirst, rest, ⟨hlength, hentries⟩, rfl⟩
        refine ⟨by rw [List.length_cons, hlength], fun i x hx => ?_⟩
        rcases i with _ | i
        · cases hx
          exact hfirst
        · have := hentries i x hx
          rwa [Nat.add_assoc, Nat.add_comm 1 i] at this
      · rintro ⟨hlength, hentries⟩
        obtain ⟨first, rest, rfl⟩ := List.exists_cons_of_length_eq_add_one hlength
        refine ⟨first, hentries 0 first rfl, rest, ⟨Nat.succ.inj hlength, fun i x hx => ?_⟩, rfl⟩
        have := hentries (i + 1) x hx
        rwa [Nat.add_assoc, Nat.add_comm 1 i]

end Decides

namespace Parses

variable {α β : Type} {m : Parse α} {L L' : α → Prop} {limit : Nat} {S S' : Prop}

theorem congr (h : Parses m L limit S) (hs : S ↔ S') (hl : S → ∀ a, L a ↔ L' a) :
    Parses m L' limit S' := by
  refine ⟨fun hsafe sizes => ?_, fun hsafe => h.exceeds (hsafe ∘ hs.mp)⟩
  obtain ⟨new, hnew, hsettles⟩ := h.safe (hs.mpr hsafe) sizes
  exact ⟨new, hnew, hsettles.congr (hl (hs.mpr hsafe))⟩

/-- A first part that decides a layout. -/
theorem bind {f : α → Parse β} {M : α → β → Prop} {T : α → Prop} (h : Decides m L)
    (hf : ∀ a, L a → Parses (f a) (M a) limit (T a)) :
    Parses (m >>= f) (fun b => ∃ a, L a ∧ M a b) limit (∀ a, L a → T a) := by
  constructor
  · intro hsafe sizes
    by_cases hnone : ∀ a, ¬ L a
    · refine ⟨[], by simp, ?_⟩
      rw [List.append_nil]
      exact (h.run sizes).bind (fun a ha => absurd ha (hnone a)) fun _ => rfl
    · obtain ⟨a, ha⟩ := not_forall_not.mp hnone
      obtain ⟨new, hnew, hsettles⟩ := (hf a ha).safe (hsafe a ha) sizes
      refine ⟨new, hnew, (h.run sizes).bind (fun a' ha' => ?_) fun h => absurd ha (h a)⟩
      have heq : a' = a := by
        rcases h.run sizes with ⟨a₀, ha₀, -⟩ | ⟨hno, -⟩
        · exact ((ha₀ a').mp ha').trans ((ha₀ a).mp ha).symm
        · exact absurd ha (hno a)
      rwa [heq]
  · intro hsafe sizes
    obtain ⟨a, hnot⟩ := not_forall.mp hsafe
    obtain ⟨ha, hnot⟩ := Classical.not_imp.mp hnot
    rcases h.run sizes with ⟨a₀, ha₀, hrun⟩ | ⟨hno, -⟩
    · cases (ha₀ a).mp ha
      obtain ⟨result, new, n, hlt, hn, hfrun⟩ := (hf a ha).exceeds hnot sizes
      exact ⟨result, new, n, hlt, hn, (outcome_bind_ok hrun).trans hfrun⟩
    · exact absurd ha (hno a)

/-- What is made of the result in the end. -/
theorem map (h : Parses m L limit S) (g : α → β) :
    Parses (m >>= fun a => Pure.pure (g a)) (fun b => ∃ a, L a ∧ b = g a) limit S := by
  constructor
  · intro hsafe sizes
    obtain ⟨new, hnew, hsettles⟩ := h.safe hsafe sizes
    exact ⟨new, hnew, hsettles.bind (fun a _ => (Decides.pure (g a)).run _) fun _ => rfl⟩
  · intro hsafe sizes
    obtain ⟨result, new, n, hlt, hn, hrun⟩ := h.exceeds hsafe sizes
    rcases result with e | a
    · exact ⟨_, new, n, hlt, hn, outcome_bind_error hrun⟩
    · exact ⟨_, new, n, hlt, hn, (outcome_bind_ok hrun).trans rfl⟩

/-- A context parses the same. -/
theorem inContext {context : RequestError → RequestError} (h : Parses m L limit S) :
    Parses (inContext context m) L limit S := by
  constructor
  · intro hsafe sizes
    obtain ⟨new, hnew, hsettles⟩ := h.safe hsafe sizes
    exact ⟨new, hnew, hsettles.inContext⟩
  · intro hsafe sizes
    obtain ⟨result, new, n, hlt, hn, hrun⟩ := h.exceeds hsafe sizes
    refine ⟨_, new, n, hlt, hn, Prod.ext rfl ?_⟩
    rw [outcome_inContext_snd, hrun]

/-- A list that is sized before its entries are decided. -/
theorem resize {elementSize count : Nat} {f : Parse α}
    (hmax : count ≤ limit → count ≤ (2 ^ 63 - 1) / elementSize)
    (hf : count ≤ (2 ^ 63 - 1) / elementSize → Decides f L) :
    Parses (do UserHalHelper.resize elementSize count; f) L limit (count ≤ limit) := by
  have hrun : ∀ sizes, count ≤ (2 ^ 63 - 1) / elementSize →
      outcome (UserHalHelper.resize elementSize count) sizes = (.ok (), sizes ++ [count]) := by
    intro sizes hle
    unfold UserHalHelper.resize
    rw [if_neg (Nat.not_lt.mpr hle)]
    rfl
  constructor
  · intro hle sizes
    refine ⟨[count], fun n hn => ?_, ?_⟩
    · rw [List.mem_singleton.mp hn]
      exact hle
    · rw [Settles, outcome_bind_ok (hrun sizes (hmax hle))]
      exact (hf (hmax hle)).run _
  · intro hlt sizes
    by_cases hle : count ≤ (2 ^ 63 - 1) / elementSize
    · rw [outcome_bind_ok (hrun sizes hle)]
      rcases (hf hle).run (sizes ++ [count]) with ⟨a, -, h⟩ | ⟨-, e, h⟩
      · exact ⟨_, [count], count, Nat.not_le.mp hlt, List.mem_singleton_self _, h⟩
      · exact ⟨_, [count], count, Nat.not_le.mp hlt, List.mem_singleton_self _, h⟩
    · have hthrow : outcome (UserHalHelper.resize elementSize count) sizes =
          (.error .lengthError, sizes ++ [count]) := by
        unfold UserHalHelper.resize
        rw [if_pos (Nat.not_le.mp hle)]
        rfl
      exact ⟨_, [count], count, Nat.not_le.mp hlt, List.mem_singleton_self _,
        outcome_bind_error hthrow⟩

end Parses

/-- Nothing is read beyond the end and nothing throws, no list is given a size beyond the
limit, and exactly the values of the layout are returned. -/
structure ParsesExactly {α : Type} (parse : Parse α) (Layout : α → Prop) (limit : Nat) :
    Prop where
  inBounds : ∀ fault, (outcome parse []).1 ≠ .error (.fault fault)
  noThrow : (outcome parse []).1 ≠ .error .lengthError
  sizes : ∀ n ∈ (outcome parse []).2, n ≤ limit
  exact : ∀ request, (outcome parse []).1 = .ok request ↔ Layout request

/-- A parsing is exact if and only if it is safe. -/
theorem Parses.parsesExactly_iff {α : Type} {m : Parse α} {L : α → Prop} {limit : Nat}
    {S : Prop} (h : Parses m L limit S) : ParsesExactly m L limit ↔ S := by
  constructor
  · intro hexact
    by_contra hsafe
    obtain ⟨result, new, n, hlt, hn, hrun⟩ := h.exceeds hsafe []
    have hle := hexact.sizes n (by rw [hrun]; exact hn)
    omega
  · intro hsafe
    obtain ⟨new, hnew, ⟨a, ha, hrun⟩ | ⟨hnone, e, hrun⟩⟩ := h.safe hsafe []
    · refine ⟨fun _ h => ?_, fun h => ?_, ?_, fun b => ?_⟩
      · rw [hrun] at h
        cases h
      · rw [hrun] at h
        cases h
      · rw [hrun]
        exact hnew
      · rw [hrun, ha b]
        exact ⟨fun h => (Except.ok.inj h).symm, fun h => by rw [h]⟩
    · refine ⟨fun _ h => ?_, fun h => ?_, ?_, fun b => ?_⟩
      · rw [hrun] at h
        cases h
      · rw [hrun] at h
        cases h
      · rw [hrun]
        exact hnew
      · rw [hrun]
        exact iff_of_false (fun h => by cases h) (hnone b)

end VhalCore.FakeHardware.UserHalHelper
