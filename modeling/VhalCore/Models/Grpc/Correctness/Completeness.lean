import Mathlib.Algebra.GroupWithZero.Nat
import VhalCore.Core.Execution
import VhalCore.Models.Grpc.Native.RequestHandler
import Mathlib.Data.List.Dedup
import Mathlib.Data.Finset.Card

/-!
# Complete replies

A hardware that accepts the requests and reports one result for each of them before the
timeout, in any batches and order, gets a reply with exactly these results in every run,
if and only if there is a request and no id is repeated. Without a request there is no
invocation of the callback to set the flag. With a repeated id the flag may be set before
the last result.
-/

namespace VhalCore.ProxyServer

open ProtoMsgConverter

variable {R P : Type} (ops : ResultOps R P)

/-- The hardware accepts the requests, and the timeout is later than all its results. -/
def Prompt (s : Handler R P) : HandlerEvent → Prop
  | .hardwareReturns status => status = statusOk
  | .timeout => s.toCome = [] ∧ ∀ invocation ∈ s.invocations, invocation = .finished
  | _ => True

/-- The steps under a prompt hardware. -/
def PromptStep (s : Handler R P) (event : HandlerEvent) (s' : Handler R P) : Prop :=
  HandlerStep ops s event s' ∧ Prompt s event

/-- One result for every request, in batches; no batch if there is no request. -/
def OneResultEach (requests : List ProtoRequest) (batches : List (List R)) : Prop :=
  (batches.flatten.map ops.requestId).Perm (requests.map (·.requestId)) ∧
    (requests = [] → batches = [])

/-- Every run is finite, goes on until the handler has returned, and the reply is the results
of the hardware. -/
structure Answered (requests : List ProtoRequest) (batches : List (List R)) : Prop where
  bounded : ∃ bound, ∀ events s,
    Path (PromptStep ops) (start requests batches) events s → events.length ≤ bound
  progress : ∀ events s, Path (PromptStep ops) (start requests batches) events s →
    s.stage.isReturned = false → ∃ event s', PromptStep ops s event s'
  correct : ∀ events s reply, Path (PromptStep ops) (start requests batches) events s →
    s.stage = .returned reply →
      ∃ results, reply = .ok results ∧ results.Perm (batches.flatten.map ops.toProto)

/-- The requests are answered whatever the batches and the order of the results. -/
def AlwaysAnswered (requests : List ProtoRequest) : Prop :=
  ∀ batches : List (List R), OneResultEach ops requests batches → Answered ops requests batches

/-- The steps that an invocation has still to take. -/
def Invocation.work : Invocation R → Nat
  | .begun results => results.length + 2
  | .locked rest => rest.length + 1
  | .finished => 0

/-- The steps that the handler has still to take. -/
def Stage.work : Stage P → Nat
  | .calling => 2
  | .waiting => 1
  | .returned _ => 0

/-- A bound for the number of steps that are left. -/
def Handler.work (s : Handler R P) : Nat :=
  (s.toCome.map fun results => results.length + 3).sum + (s.invocations.map Invocation.work).sum +
    s.stage.work

/-- Every step uses up work. -/
theorem HandlerStep.work_lt {s s' : Handler R P} {event : HandlerEvent}
    (h : HandlerStep ops s event s') : s'.work < s.work := by
  cases h with
  | invoke h =>
      simp only [Handler.work, h, List.map_append, List.map_cons, List.map_nil, List.sum_append,
        List.sum_cons, List.sum_nil, Invocation.work]
      omega
  | enter h _ =>
      simp only [Handler.work, h, List.map_append, List.map_cons, List.sum_append, List.sum_cons,
        Invocation.work]
      omega
  | report h =>
      simp only [Handler.work, h, List.map_append, List.map_cons, List.sum_append, List.sum_cons,
        Invocation.work, List.length_cons]
      omega
  | check h =>
      simp only [Handler.work, h, List.map_append, List.map_cons, List.sum_append, List.sum_cons,
        Invocation.work, List.length_nil]
      omega
  | @hardwareReturns status h =>
      simp only [Handler.work, h]
      split <;> simp only [Stage.work] <;> omega
  | wake h _ _ | timeout h _ =>
      simp only [Handler.work, h, Stage.work]
      omega

/-- A run has no more steps than the work it uses up. -/
theorem length_add_work_le {s s' : Handler R P} {events : List HandlerEvent}
    (h : Path (PromptStep ops) s events s') : events.length + s'.work ≤ s.work := by
  induction h with
  | nil => simp
  | snoc _ hstep ih =>
      have hlt := hstep.1.work_lt
      rw [List.length_append, List.length_singleton]
      omega

/-- The results that an invocation has still to report. -/
def Invocation.rest : Invocation R → List R
  | .begun results => results
  | .locked rest => rest
  | .finished => []

/-- The results that are still to be reported. -/
def Handler.unreported (s : Handler R P) : List R :=
  s.invocations.flatMap Invocation.rest ++ s.toCome.flatten

/-- The mutex is held by an invocation in its locked section. -/
def LockHeld (s : Handler R P) : Prop :=
  s.waitMtx = true → ∃ rest, .locked rest ∈ s.invocations

/-- Every step keeps who holds the lock. -/
theorem HandlerStep.lockHeld {s s' : Handler R P} {event : HandlerEvent}
    (h : HandlerStep ops s event s') (hs : LockHeld s) : LockHeld s' := by
  cases h with
  | invoke h =>
      intro hheld
      obtain ⟨rest, hmem⟩ := hs hheld
      exact ⟨rest, List.mem_append_left _ hmem⟩
  | enter h _ => exact fun _ => ⟨_, List.mem_append_right _ List.mem_cons_self⟩
  | report h => exact fun _ => ⟨_, List.mem_append_right _ List.mem_cons_self⟩
  | check h => exact fun hheld => absurd hheld Bool.false_ne_true
  | hardwareReturns h => exact hs
  | wake h _ _ => exact hs
  | timeout h _ => exact hs

/-- An invocation in its locked section can go on. -/
theorem step_of_locked {s : Handler R P} {rest : List R} (h : .locked rest ∈ s.invocations) :
    ∃ event s', PromptStep ops s event s' := by
  obtain ⟨before, after, hsplit⟩ := List.append_of_mem h
  cases rest with
  | nil => exact ⟨.check, _, .check hsplit, trivial⟩
  | cons result rest => exact ⟨.report, _, .report hsplit, trivial⟩

/-- Until the handler has returned something can happen. -/
theorem LockHeld.progress {s : Handler R P} (h : LockHeld s)
    (hstage : s.stage.isReturned = false) : ∃ event s', PromptStep ops s event s' := by
  cases hs : s.stage with
  | calling => exact ⟨.hardwareReturns statusOk, _, .hardwareReturns hs, rfl⟩
  | returned reply =>
      rw [hs] at hstage
      cases hstage
  | waiting =>
      cases hcome : s.toCome with
      | cons results rest => exact ⟨.invoke, _, .invoke hcome, trivial⟩
      | nil =>
          cases hheld : s.waitMtx with
          | true =>
              obtain ⟨rest, hmem⟩ := h hheld
              exact step_of_locked ops hmem
          | false =>
              by_cases hdone : ∀ invocation ∈ s.invocations, invocation = .finished
              · exact ⟨.timeout, _, .timeout hs hheld, hcome, hdone⟩
              · push Not at hdone
                obtain ⟨invocation, hmem, hne⟩ := hdone
                cases invocation with
                | finished => exact absurd rfl hne
                | locked rest => exact step_of_locked ops hmem
                | begun results =>
                    obtain ⟨before, after, hsplit⟩ := List.append_of_mem hmem
                    exact ⟨.enter, _, .enter hsplit hheld, trivial⟩

/-- The ids of the requests, as the handler collects them. -/
theorem requestIds_start (requests : List ProtoRequest) (batches : List (List R)) :
    (start requests batches : Handler R P).requestIds =
      (requests.map (·.requestId)).toFinset := by
  have hfold (ids : Finset Int64) :
      requests.foldl (fun ids request => insert request.requestId ids) ids =
        ids ∪ (requests.map (·.requestId)).toFinset := by
    induction requests generalizing ids with
    | nil => simp
    | cons request requests ih =>
        rw [List.foldl_cons, ih, List.map_cons, List.toFinset_cons]
        ext id
        simp only [Finset.mem_union, Finset.mem_insert]
        tauto
  exact (hfold ∅).trans (Finset.empty_union _)

/-- What the callback has collected for a list of ids and of results, until the handler has
returned: the results that are reported, the ids that are left, and the flag, which follows
the last id at the end of the locked section. -/
structure Collected (ids : List Int64) (results : List R) (s : Handler R P)
    (reported : List R) : Prop where
  messages : s.tmpResults = reported.map ops.toProto
  all : (reported ++ s.unreported).Perm results
  left : s.requestIds = ids.toFinset \ (reported.map ops.requestId).toFinset
  flagged : s.complete = true → s.requestIds = ∅
  willFlag : s.requestIds = ∅ → s.complete = true ∨ ∃ rest, .locked rest ∈ s.invocations

/-- An invocation among others: what is unreported before and after a step of it. -/
theorem flatMap_rest_perm (before after : List (Invocation R)) (invocation : Invocation R) :
    ((before ++ invocation :: after).flatMap Invocation.rest).Perm
      (invocation.rest ++ (before.flatMap Invocation.rest ++ after.flatMap Invocation.rest)) := by
  rw [List.flatMap_append, List.flatMap_cons, ← List.append_assoc, ← List.append_assoc]
  exact List.perm_append_comm.append_right _

/-- Every step keeps the account of the collected results. -/
theorem Collected.step {ids : List Int64} {results reported : List R} {s s' : Handler R P}
    {event : HandlerEvent} (h : Collected ops ids results s reported)
    (hstep : HandlerStep ops s event s') (hstage : s'.stage.isReturned = false) :
    ∃ reported', Collected ops ids results s' reported' := by
  cases hstep with
  | @invoke batch rest hcome =>
      refine ⟨reported, h.messages, ?_, h.left, h.flagged, fun hempty => ?_⟩
      · have hsame : ({ s with toCome := rest, invocations := s.invocations ++ [.begun batch] } :
            Handler R P).unreported = s.unreported := by
          simp only [Handler.unreported, hcome, List.flatMap_append, List.flatMap_cons,
            List.flatMap_nil, Invocation.rest, List.append_nil, List.append_assoc,
            List.flatten_cons]
        rw [hsame]
        exact h.all
      · rcases h.willFlag hempty with hflag | ⟨rest, hmem⟩
        · exact Or.inl hflag
        · exact Or.inr ⟨rest, List.mem_append_left _ hmem⟩
  | @enter before after batch hsplit hfree =>
      refine ⟨reported, h.messages, ?_, h.left, h.flagged, fun _ => Or.inr ⟨batch, by simp⟩⟩
      have hsame : ({ s with waitMtx := true, invocations := before ++ .locked batch :: after } :
          Handler R P).unreported = s.unreported := by
        simp only [Handler.unreported, hsplit, List.flatMap_append, List.flatMap_cons,
          Invocation.rest]
      rw [hsame]
      exact h.all
  | @report before after result rest hsplit =>
      refine ⟨reported ++ [result], ?_, ?_, ?_, fun hflag => ?_, fun _ => Or.inr ⟨rest, by simp⟩⟩
      · simp only [h.messages, List.map_append, List.map_cons, List.map_nil]
      · refine List.Perm.trans ?_ h.all
        rw [List.append_assoc]
        apply List.Perm.append_left
        simp only [Handler.unreported, hsplit, ← List.append_assoc]
        apply List.Perm.append_right
        exact (List.Perm.append_left [result] (flatMap_rest_perm before after (.locked rest))).trans
          (flatMap_rest_perm before after (.locked (result :: rest))).symm
      · simp only [h.left, List.map_append, List.map_cons, List.map_nil, List.toFinset_append,
          List.toFinset_cons, List.toFinset_nil]
        ext id
        simp only [Finset.mem_erase, Finset.mem_sdiff, Finset.mem_union, Finset.mem_insert]
        tauto
      · simp only [h.flagged hflag, Finset.erase_empty]
  | @check before after hsplit =>
      refine ⟨reported, h.messages, ?_, h.left, fun hflag => ?_, fun hempty => Or.inl ?_⟩
      · have hsame : ({ s with
              complete := s.complete || decide (s.requestIds = ∅)
              waitMtx := false
              invocations := before ++ .finished :: after
              lateAccess := s.lateAccess || s.stage.isReturned } : Handler R P).unreported =
            s.unreported := by
          simp only [Handler.unreported, hsplit, List.flatMap_append, List.flatMap_cons,
            Invocation.rest]
        rw [hsame]
        exact h.all
      · rcases (Bool.or_eq_true _ _).mp hflag with hflag | hempty
        · exact h.flagged hflag
        · exact of_decide_eq_true hempty
      · exact (Bool.or_eq_true _ _).mpr (Or.inr (decide_eq_true hempty))
  | hardwareReturns _ =>
      exact ⟨reported, h.messages, h.all, h.left, h.flagged, h.willFlag⟩
  | wake _ _ _ => cases hstage
  | timeout _ _ => cases hstage

/-- If no id is repeated, the last id is erased with the last result. -/
theorem Collected.unreported_eq_nil {ids : List Int64} {results reported : List R}
    {s : Handler R P} (h : Collected ops ids results s reported) (hnodup : ids.Nodup)
    (hresults : (results.map ops.requestId).Perm ids) (hempty : s.requestIds = ∅) :
    s.unreported = [] := by
  have hsubset : ids.toFinset ⊆ (reported.map ops.requestId).toFinset := by
    rw [← Finset.sdiff_eq_empty_iff_subset, ← h.left, hempty]
  have hcard : ids.length ≤ reported.length := by
    calc ids.length = ids.toFinset.card := (List.toFinset_card_of_nodup hnodup).symm
      _ ≤ (reported.map ops.requestId).toFinset.card := Finset.card_le_card hsubset
      _ ≤ (reported.map ops.requestId).length := List.toFinset_card_le _
      _ = reported.length := List.length_map ..
  have hlength := h.all.length_eq
  have hids := hresults.length_eq
  rw [List.length_append] at hlength
  rw [List.length_map] at hids
  apply List.eq_nil_of_length_eq_zero
  omega

/-- The reply of a handler that returns with the flag set. -/
theorem Collected.reply {ids : List Int64} {results reported : List R} {s : Handler R P}
    (h : Collected ops ids results s reported) (hnodup : ids.Nodup)
    (hresults : (results.map ops.requestId).Perm ids) (hflag : s.complete = true) :
    s.tmpResults.Perm (results.map ops.toProto) := by
  have hall := h.all
  rw [h.unreported_eq_nil ops hnodup hresults (h.flagged hflag), List.append_nil] at hall
  rw [h.messages]
  exact hall.map ops.toProto

/-- After the last result of a prompt hardware the flag is set. -/
theorem Collected.complete_of_finished {ids : List Int64} {results reported : List R}
    {s : Handler R P} (h : Collected ops ids results s reported)
    (hresults : (results.map ops.requestId).Perm ids) (hcome : s.toCome = [])
    (hdone : ∀ invocation ∈ s.invocations, invocation = .finished) : s.complete = true := by
  have hunreported : s.unreported = [] := by
    simp only [Handler.unreported, hcome, List.flatten_nil, List.append_nil,
      List.flatMap_eq_nil_iff]
    intro invocation hmem
    rw [hdone invocation hmem]
    rfl
  have hall := h.all
  rw [hunreported, List.append_nil] at hall
  have hempty : s.requestIds = ∅ := by
    rw [h.left, Finset.sdiff_eq_empty_iff_subset]
    intro id hid
    rw [List.mem_toFinset] at hid ⊢
    exact ((hall.map ops.requestId).trans hresults).mem_iff.mpr hid
  rcases h.willFlag hempty with hflag | ⟨rest, hmem⟩
  · exact hflag
  · cases hdone _ hmem

/-- The state of a run: collecting, or returned with the results. -/
def Answering (ids : List Int64) (results : List R) (s : Handler R P) : Prop :=
  (s.stage.isReturned = false ∧ ∃ reported, Collected ops ids results s reported) ∨
    ∃ reply, s.stage = .returned (.ok reply) ∧ reply.Perm (results.map ops.toProto)

/-- A returned handler stays returned with its reply. -/
theorem HandlerStep.stage_of_returned {s s' : Handler R P} {event : HandlerEvent}
    (h : HandlerStep ops s event s') (hstage : s.stage.isReturned = true) :
    s'.stage = s.stage := by
  cases h with
  | invoke _ => rfl
  | enter _ _ => rfl
  | report _ => rfl
  | check _ => rfl
  | hardwareReturns h | wake h _ _ | timeout h _ =>
      rw [h] at hstage
      cases hstage

/-- Every prompt step keeps the handler answering. -/
theorem Answering.step {ids : List Int64} {results : List R} {s s' : Handler R P}
    {event : HandlerEvent} (h : Answering ops ids results s) (hnodup : ids.Nodup)
    (hresults : (results.map ops.requestId).Perm ids) (hstep : PromptStep ops s event s') :
    Answering ops ids results s' := by
  rcases h with ⟨hstage, reported, h⟩ | ⟨reply, hstage, hreply⟩
  · cases hstage' : s'.stage.isReturned with
    | false => exact Or.inl ⟨hstage', h.step ops hstep.1 hstage'⟩
    | true =>
        right
        obtain ⟨hstep, hprompt⟩ := hstep
        cases hstep with
        | invoke _ | enter _ _ | report _ | check _ =>
            cases hstage.symm.trans hstage'
        | @hardwareReturns status _ =>
            have hok : status = statusOk := hprompt
            subst hok
            simp [Stage.isReturned] at hstage'
        | wake _ _ hflag => exact ⟨_, rfl, h.reply ops hnodup hresults hflag⟩
        | timeout _ _ =>
            have hflag := h.complete_of_finished ops hresults hprompt.1 hprompt.2
            refine ⟨s.tmpResults, ?_, h.reply ops hnodup hresults hflag⟩
            simp only [hflag, if_true]
  · right
    refine ⟨reply, ?_, hreply⟩
    rw [hstep.1.stage_of_returned ops (by rw [hstage]; rfl), hstage]

/-- With a request and without a repeated id every hardware gets its reply. -/
theorem alwaysAnswered_of_nodup {requests : List ProtoRequest} (hne : requests ≠ [])
    (hnodup : (requests.map (·.requestId)).Nodup) : AlwaysAnswered ops requests := by
  rintro batches ⟨hresults, -⟩
  have hinit : Answering ops (requests.map (·.requestId)) batches.flatten
      (start requests batches : Handler R P) := by
    refine Or.inl ⟨rfl, [], rfl, List.Perm.refl _, ?_, fun hflag => ?_, fun hempty => ?_⟩
    · rw [requestIds_start]
      simp
    · cases hflag
    · rw [requestIds_start, List.toFinset_eq_empty_iff, List.map_eq_nil_iff] at hempty
      exact absurd hempty hne
  refine ⟨⟨(start requests batches : Handler R P).work, fun events s hpath => ?_⟩,
    fun events s hpath => ?_, fun events s reply hpath hreply => ?_⟩
  · have hwork := length_add_work_le ops hpath
    omega
  · apply LockHeld.progress
    apply hpath.invariant (P := LockHeld)
    · exact fun hheld => absurd hheld Bool.false_ne_true
    · exact fun t a u ht hstep => hstep.1.lockHeld ops ht
  · have hanswering := hpath.invariant (P := Answering ops _ batches.flatten) hinit
      fun t a u ht hstep => ht.step ops hnodup hresults hstep
    rcases hanswering with ⟨hstage, -⟩ | ⟨results, hstage, hperm⟩
    · rw [hreply] at hstage
      cases hstage
    · rw [hreply] at hstage
      cases hstage
      exact ⟨results, rfl, hperm⟩

/-- Without a request the handler runs into the timeout. -/
theorem not_alwaysAnswered_nil : ¬ AlwaysAnswered ops [] := by
  intro h
  let s₁ : Handler R P := { (start [] [] : Handler R P) with stage := .waiting }
  have h1 : PromptStep ops (start [] []) (.hardwareReturns statusOk) s₁ :=
    ⟨.hardwareReturns rfl, rfl⟩
  have h2 : PromptStep ops s₁ .timeout { s₁ with stage := .returned (.error .timeout) } :=
    ⟨.timeout rfl rfl, rfl, fun _ hmem => absurd hmem List.not_mem_nil⟩
  obtain ⟨results, hreply, -⟩ := (h [] ⟨.refl _, fun _ => rfl⟩).correct _ _ _
    ((Path.single h1).snoc h2) rfl
  cases hreply

/-- The locked section of the only invocation reports its results one by one. -/
theorem report_all (results : List R) (s : Handler R P)
    (h : s.invocations = [.locked results]) (hstage : s.stage.isReturned = false) :
    ∃ events, Path (PromptStep ops) s events
      { s with
        tmpResults := s.tmpResults ++ results.map ops.toProto
        requestIds := s.requestIds \ (results.map ops.requestId).toFinset
        invocations := [.locked []] } := by
  induction results generalizing s with
  | nil =>
      refine ⟨[], ?_⟩
      have hsame : ({ s with
          tmpResults := s.tmpResults ++ ([] : List R).map ops.toProto
          requestIds := s.requestIds \ (([] : List R).map ops.requestId).toFinset
          invocations := [.locked []] } : Handler R P) = s := by
        rcases s
        simp_all
      rw [hsame]
      exact .nil s
  | cons result rest ih =>
      have h1 : PromptStep ops s .report
          { s with
            tmpResults := s.tmpResults ++ [ops.toProto result]
            requestIds := s.requestIds.erase (ops.requestId result)
            invocations := [.locked rest] } := by
        have hreport := @HandlerStep.report R P ops s [] [] result rest h
        rw [hstage, Bool.or_false] at hreport
        exact ⟨hreport, trivial⟩
      obtain ⟨events, hpath⟩ := ih { s with
        tmpResults := s.tmpResults ++ [ops.toProto result]
        requestIds := s.requestIds.erase (ops.requestId result)
        invocations := [.locked rest] } rfl hstage
      refine ⟨.report :: events, ?_⟩
      have hids : s.requestIds.erase (ops.requestId result) \
          (rest.map ops.requestId).toFinset =
          s.requestIds \ ((result :: rest).map ops.requestId).toFinset := by
        ext id
        simp only [Finset.mem_sdiff, Finset.mem_erase, List.map_cons, List.toFinset_cons,
          Finset.mem_insert]
        tauto
      have htrans := (Path.single h1).trans hpath
      simp only [hids, List.append_assoc, List.singleton_append] at htrans
      exact htrans

/-- With a repeated id the handler may return before the last result: the hardware reports
one result for each id first, and the others after the handler has returned. -/
theorem not_alwaysAnswered_of_repeated (hsurj : Function.Surjective ops.requestId)
    {requests : List ProtoRequest} (hrepeated : ¬ (requests.map (·.requestId)).Nodup) :
    ¬ AlwaysAnswered ops requests := by
  intro h
  let ids := requests.map (·.requestId)
  obtain ⟨extra, hextra⟩ := (List.dedup_sublist ids).exists_perm_append
  obtain ⟨result, hresult⟩ := hsurj.hasRightInverse
  let first := ids.dedup.map result
  let second := extra.map result
  have hids : ops.requestId ∘ result = id := funext hresult
  have heach : OneResultEach ops requests [first, second] := by
    refine ⟨?_, fun hnil => ?_⟩
    · simp only [first, second, List.flatten_cons, List.flatten_nil, List.append_nil,
        List.map_append, List.map_map, hids, List.map_id]
      exact hextra.symm
    · rw [hnil] at hrepeated
      exact absurd List.nodup_nil hrepeated
  let s₀ : Handler R P := start requests [first, second]
  let s₁ : Handler R P := { s₀ with toCome := [second], invocations := [.begun first] }
  let s₂ : Handler R P := { s₁ with waitMtx := true, invocations := [.locked first] }
  have h1 : PromptStep ops s₀ .invoke s₁ := ⟨.invoke rfl, trivial⟩
  have h2 : PromptStep ops s₁ .enter s₂ :=
    ⟨@HandlerStep.enter R P ops s₁ [] [] first rfl rfl, trivial⟩
  obtain ⟨events, hpath⟩ := report_all ops first s₂ rfl rfl
  have hempty : s₀.requestIds \ (first.map ops.requestId).toFinset = ∅ := by
    rw [requestIds_start, Finset.sdiff_eq_empty_iff_subset]
    intro id hid
    simp only [first, List.map_map, hids, List.map_id, List.mem_toFinset, List.mem_dedup]
    exact List.mem_toFinset.mp hid
  let s₃ : Handler R P := { s₂ with
    tmpResults := first.map ops.toProto, requestIds := ∅, invocations := [.locked []] }
  have hreported : Path (PromptStep ops) s₂ events s₃ := by
    rw [show s₂.requestIds \ (first.map ops.requestId).toFinset = ∅ from hempty] at hpath
    exact hpath
  let s₄ : Handler R P := { s₃ with complete := true, waitMtx := false, invocations := [.finished] }
  let s₅ : Handler R P := { s₄ with stage := .waiting }
  have h4 : PromptStep ops s₃ .check s₄ :=
    ⟨@HandlerStep.check R P ops s₃ [] [] rfl, trivial⟩
  have h5 : PromptStep ops s₄ (.hardwareReturns statusOk) s₅ := ⟨.hardwareReturns rfl, rfl⟩
  have h6 : PromptStep ops s₅ .wake
      { s₅ with stage := .returned (.ok (first.map ops.toProto)), tmpResults := [] } :=
    ⟨.wake rfl rfl rfl, trivial⟩
  have hrun := (((((Path.single h1).snoc h2).trans hreported).snoc h4).snoc h5).snoc h6
  obtain ⟨results, hreply, hperm⟩ := (h _ heach).correct _ _ _ hrun rfl
  cases hreply
  have hlength := hperm.length_eq
  have htotal := hextra.length_eq
  simp only [first, second, List.length_map, List.flatten_cons, List.flatten_nil, List.append_nil,
    List.length_append] at hlength htotal
  have hextra_nil : extra = [] := List.eq_nil_of_length_eq_zero (by omega)
  rw [hextra_nil, List.append_nil] at hextra
  exact hrepeated (hextra.nodup_iff.mpr (List.nodup_dedup ids))

/-- A hardware that reports one result for every request always gets its reply exactly if
there is a request and no id is repeated. -/
theorem alwaysAnswered_iff (hsurj : Function.Surjective ops.requestId)
    (requests : List ProtoRequest) :
    AlwaysAnswered ops requests ↔ requests ≠ [] ∧ (requests.map (·.requestId)).Nodup := by
  constructor
  · intro h
    constructor
    · rintro rfl
      exact not_alwaysAnswered_nil ops h
    · by_contra hrepeated
      exact not_alwaysAnswered_of_repeated ops hsurj hrepeated h
  · rintro ⟨hne, hnodup⟩
    exact alwaysAnswered_of_nodup ops hne hnodup

/-- Both handlers: writes and reads. -/
theorem setValues_getValues_alwaysAnswered_iff (requests : List ProtoRequest) :
    (AlwaysAnswered setValueOps requests ↔
      requests ≠ [] ∧ (requests.map (·.requestId)).Nodup) ∧
    (AlwaysAnswered getValueOps requests ↔
      requests ≠ [] ∧ (requests.map (·.requestId)).Nodup) :=
  ⟨alwaysAnswered_iff setValueOps (fun id => ⟨⟨id, 0⟩, rfl⟩) requests,
    alwaysAnswered_iff getValueOps (fun id => ⟨⟨id, 0, none⟩, rfl⟩) requests⟩

/-- No request at all, and two requests with the same id. -/
theorem not_alwaysAnswered_empty_and_repeated :
    ¬ AlwaysAnswered setValueOps [] ∧ ¬ AlwaysAnswered getValueOps [] ∧
      ¬ AlwaysAnswered setValueOps [⟨7, {}⟩, ⟨7, {}⟩] ∧
      ¬ AlwaysAnswered getValueOps [⟨7, {}⟩, ⟨7, {}⟩] := by
  have hrepeated : ¬ ([⟨7, {}⟩, ⟨7, {}⟩].map ProtoRequest.requestId).Nodup := by decide
  exact ⟨not_alwaysAnswered_nil _, not_alwaysAnswered_nil _,
    not_alwaysAnswered_of_repeated _ (fun id => ⟨⟨id, 0⟩, rfl⟩) hrepeated,
    not_alwaysAnswered_of_repeated _ (fun id => ⟨⟨id, 0, none⟩, rfl⟩) hrepeated⟩

end VhalCore.ProxyServer
