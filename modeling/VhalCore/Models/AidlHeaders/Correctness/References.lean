import VhalCore.Models.AidlHeaders.Correctness.EnumLines

/-!
# References and comments

The references to other enums are rewritten within the text around them: the rewritten text is as
empty as the text, begins as white space or with a slash only where the text does, and has a
comment exactly where the text has one.
-/

namespace VhalCore.AidlHeaders

variable {U : CharClasses} {a b text : Text}

theorem slashes_prefix_iff {c : Char} :
    ['/', '/'] <+: c :: text ↔ c = '/' ∧ text.head? = some '/' := by
  cases text with
  | nil => simp
  | cons d text => simp [eq_comm]

theorem beforeComment_cons_eq_none {c : Char} :
    beforeComment (c :: text) = none ↔
      ¬(c = '/' ∧ text.head? = some '/') ∧ beforeComment text = none := by
  rw [← slashes_prefix_iff, beforeComment]
  split_ifs with h <;> simp [h]

theorem beforeComment_eq_none_iff : beforeComment text = none ↔ ¬['/', '/'] <:+: text := by
  induction text with
  | nil => simp [beforeComment]
  | cons c text ih =>
    rw [beforeComment_cons_eq_none, ih, ← slashes_prefix_iff, List.infix_cons_iff, not_or]

/-- A comment after a text without one is found. -/
theorem beforeComment_append (ha : beforeComment a = none)
    (h : a.getLast? = some '/' → b.head? ≠ some '/') :
    beforeComment (a ++ b) = (beforeComment b).map (a ++ ·) := by
  induction a with
  | nil => simp
  | cons c a ih =>
    obtain ⟨hc, hrest⟩ := beforeComment_cons_eq_none.1 ha
    have hlast : a.getLast? = some '/' → b.head? ≠ some '/' := fun hl => h (by
      cases a with
      | nil => simp at hl
      | cons d a => simpa using hl)
    have hstart : ¬['/', '/'] <+: c :: (a ++ b) := by
      rw [slashes_prefix_iff]
      rintro ⟨rfl, hhead⟩
      cases a with
      | nil => exact h rfl (by simpa using hhead)
      | cons d a => exact hc ⟨rfl, by simpa using hhead⟩
    rw [List.cons_append, beforeComment, if_neg hstart, ih hrest hlast, Option.map_map]
    rfl

/-- Two texts hold no comment together exactly if neither does, unless the two slashes stand across
them. -/
theorem beforeComment_append_eq_none (h : a.getLast? = some '/' → b.head? ≠ some '/') :
    beforeComment (a ++ b) = none ↔ beforeComment a = none ∧ beforeComment b = none := by
  constructor
  · intro hab
    rw [beforeComment_eq_none_iff] at hab
    rw [beforeComment_eq_none_iff, beforeComment_eq_none_iff]
    exact ⟨fun ha => hab (ha.trans (List.prefix_append a b).isInfix),
      fun hb => hab (hb.trans (List.suffix_append a b).isInfix)⟩
  · rintro ⟨ha, hb⟩
    rw [beforeComment_append ha h, hb]
    rfl

theorem beforeComment_of_notMem (h : '/' ∉ a) : beforeComment a = none := by
  rw [beforeComment_eq_none_iff]
  exact fun hi => h (hi.subset (by simp))

/-- A text without slashes before a text changes nothing. -/
theorem beforeComment_append_of_notMem (h : '/' ∉ a) :
    beforeComment (a ++ b) = none ↔ beforeComment b = none := by
  rw [beforeComment_append_eq_none (fun hl => absurd (List.mem_of_getLast? hl) h)]
  simp [beforeComment_of_notMem h]

section Rewrite

/-- What a reference is made of. -/
theorem matchReference_eq_some {enum constant rest : Text}
    (h : matchReference U text = some (enum, constant, rest)) :
    text = enum ++ '.' :: (constant ++ rest) ∧ '/' ∉ enum ∧ '/' ∉ constant := by
  cases text with
  | nil => simp [matchReference] at h
  | cons c text =>
    rw [matchReference] at h
    have hsplit := List.takeWhile_append_dropWhile (p := U.isWord) (l := text)
    split at h
    · rename_i d rest' hdrop
      split_ifs at h with hcond
      obtain ⟨hc, -, hd⟩ := hcond
      simp only [Option.some.injEq, Prod.mk.injEq] at h
      obtain ⟨rfl, rfl, rfl⟩ := h
      refine ⟨?_, ?_, ?_⟩
      · conv_lhs => rw [← hsplit, hdrop]
        simp
      · rw [List.mem_cons, not_or]
        refine ⟨fun he => absurd (he ▸ hc) (by decide), fun hm => ?_⟩
        simpa using List.mem_takeWhile_imp hm
      · rw [List.mem_cons, not_or]
        refine ⟨fun he => absurd (he ▸ hd) (by decide), fun hm => ?_⟩
        exact absurd (List.mem_takeWhile_imp hm) (by decide)
    · simp at h

/-- Rewriting keeps the first character, or puts `static_cast` before an upper case one. -/
theorem rewriteUpTo_head (n : Nat) (c : Char) (text : Text) :
    (rewriteUpTo U n (c :: text)).head? = some c ∨
      (rewriteUpTo U n (c :: text)).head? = some 's' ∧ c.isUpper = true := by
  cases n with
  | zero => simp [rewriteUpTo]
  | succ n =>
    rw [rewriteUpTo]
    cases h : matchReference U (c :: text) with
    | none => simp
    | some groups =>
      refine .inr ⟨by simp, ?_⟩
      rw [matchReference] at h
      split at h
      · split_ifs at h with hcond
        exact hcond.1
      · simp at h

/-- Rewriting neither adds nor removes a slash at the front. -/
theorem rewriteUpTo_head_slash (n : Nat) :
    (rewriteUpTo U n text).head? = some '/' ↔ text.head? = some '/' := by
  cases text with
  | nil => cases n <;> simp [rewriteUpTo]
  | cons c text =>
    rcases rewriteUpTo_head (U := U) n c text with h | ⟨h, hc⟩
    · simp [h]
    · have : c ≠ '/' := by rintro rfl; exact absurd hc (by decide)
      simp [h, this]

/-- Rewriting neither adds nor removes a comment. -/
theorem rewriteUpTo_noComment (n : Nat) :
    beforeComment (rewriteUpTo U n text) = none ↔ beforeComment text = none := by
  induction n generalizing text with
  | zero => rfl
  | succ n ih =>
    cases text with
    | nil => rfl
    | cons c text =>
      rw [rewriteUpTo]
      cases h : matchReference U (c :: text) with
      | none =>
        dsimp only
        rw [beforeComment_cons_eq_none, beforeComment_cons_eq_none, ih, rewriteUpTo_head_slash]
      | some groups =>
        obtain ⟨enum, constant, rest⟩ := groups
        obtain ⟨htext, henum, hconstant⟩ := matchReference_eq_some h
        have hbefore : '/' ∉ "static_cast<int32_t>(".toList ++ enum ++ "::".toList ++ constant ++
            ")".toList := by simp [henum, hconstant]
        have hreference : '/' ∉ enum ++ '.' :: constant := by simp [henum, hconstant]
        dsimp only
        rw [beforeComment_append_of_notMem hbefore, ih, htext, ← List.cons_append,
          ← List.append_assoc, beforeComment_append_of_notMem hreference]

/-- Rewriting neither adds nor removes a comment. -/
theorem rewriteReferences_noComment :
    beforeComment (rewriteReferences U text) = none ↔ beforeComment text = none :=
  rewriteUpTo_noComment _

/-- A text that does not begin with white space is rewritten to one that does not. -/
theorem rewriteReferences_head (h : text ≠ []) (hs : ∀ c ∈ text.head?, c ≠ ' ') :
    rewriteReferences U text ≠ [] ∧ (rewriteReferences U text).head? ≠ some ' ' := by
  obtain ⟨c, rest, rfl⟩ := List.exists_cons_of_ne_nil h
  have hc : c ≠ ' ' := hs c rfl
  rcases rewriteUpTo_head (U := U) (c :: rest).length c rest with hh | ⟨hh, -⟩ <;>
    refine ⟨fun hnil => ?_, ?_⟩ <;> unfold rewriteReferences at * <;> simp_all

end Rewrite

end VhalCore.AidlHeaders
