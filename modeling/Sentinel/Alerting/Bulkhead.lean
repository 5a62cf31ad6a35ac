import Sentinel.Alerting.Lanes

/-!
# What one sink does to the others

The lanes share nothing, and `process` offers an alert to each of them without waiting.  What a sink
does (when it takes a notification, how a delivery ends or whether it hangs, when its cancelled
worker ends) can reach another lane only through `aclose`, which awaits one worker before it stops
the next.  `SameBut` relates two fan-outs that may differ in what the sink of one lane did:
`SameBut.run` is that all other lanes go through the same run in both, as long as the stop of that
lane returns in both where `aclose` goes past it.

A sink that does not let its cancelled worker end keeps `aclose` from stopping the lanes after its
own (`Awaits.step`).
-/

namespace Sentinel.Alerting

open StepSystem

/-- The worker and its sink do it by themselves. -/
def LaneAction.ofSink : LaneAction → Bool
  | .take | .finish _ | .cancelled | .aborted => true
  | .offer _ | .stop | .stopped => false

namespace SinkLane

/-- What the rest of the fan-out can see of a lane: what its sink accepts, whether it has a worker,
and whether its stop has returned. -/
def shell (lane : SinkLane) : ℕ × Bool × Bool :=
  (lane.minSeverity, lane.worker = .absent, lane.stopping = .returned)

variable {lane lane' other other' : SinkLane} {action : LaneAction}

/-- What a sink does is not seen. -/
lemma shell_of_ofSink (hsink : action.ofSink = true) (hstep : lane.step action = some lane') :
    lane'.shell = lane.shell := by
  cases stepped hstep with
  | offer | stop | stopped => cases hsink
  | take hworker | finish _ hworker | endWaiting _ hworker | endDelivering _ hworker
  | aborted _ hworker => simp [shell, hworker]

/-- What can be seen of a lane after a step depends on what could be seen of it before. -/
lemma shell_step (hsame : other.shell = lane.shell) (hstep : lane.step action = some lane')
    (hother : other.step action = some other') : other'.shell = lane'.shell := by
  cases hsink : action.ofSink with
  | true => rw [shell_of_ofSink hsink hstep, shell_of_ofSink hsink hother, hsame]
  | false =>
      simp only [shell, Prod.mk.injEq, decide_eq_decide] at hsame ⊢
      obtain ⟨hseverity, habsent, hreturned⟩ := hsame
      rw [(step_frame hstep).1, (step_frame hother).1]
      refine ⟨hseverity, ?_⟩
      cases stepped hstep with
      | offer alert =>
          obtain rfl := Option.some.inj hother
          refine ⟨?_, hreturned⟩
          unfold offer
          split_ifs <;> simp_all
      | stop hstopping =>
          cases stepped hother with
          | stop hstopping' =>
              unfold stop
              by_cases hworker : lane.worker = .absent
              · rw [if_pos hworker, if_pos (habsent.mpr hworker)]
                exact ⟨habsent, Iff.rfl⟩
              · rw [if_neg hworker, if_neg fun h => hworker (habsent.mp h)]
                exact ⟨habsent, by simp⟩
      | stopped hstopping hworker =>
          cases stepped hother with
          | stopped hstopping' hworker' => exact ⟨Iff.rfl, Iff.rfl⟩
      | take | finish | endWaiting | endDelivering | aborted => cases hsink

end SinkLane

namespace Fanout

/-- An action that is not one of the sink of lane `i`. -/
def elsewhere (i : ℕ) : Action → Bool
  | .lane j action => !(decide (j = i) && action.ofSink)
  | _ => true

/-- Two fan-outs that may differ in what the sink of lane `i` did. -/
structure SameBut (i : ℕ) (s t : Fanout) : Prop where
  phase : t.phase = s.phase
  length : t.lanes.length = s.lanes.length
  others : ∀ j, j ≠ i → t.lanes[j]? = s.lanes[j]?
  shell : t.lanes[i]?.map SinkLane.shell = s.lanes[i]?.map SinkLane.shell

variable {i : ℕ} {s s' t t' : Fanout} {action : Action}

lemma shell_route {lane other : SinkLane} (alert : Alert) (hsame : other.shell = lane.shell) :
    (route alert other).shell = (route alert lane).shell := by
  have haccepts : other.accepts alert = lane.accepts alert := by
    simp only [SinkLane.shell, Prod.mk.injEq] at hsame
    simp [Lane.accepts, hsame.1]
  unfold route
  rw [haccepts]
  split_ifs
  · exact SinkLane.shell_step hsame (show lane.step (.offer alert) = some _ from rfl) rfl
  · exact hsame

/-- A sink does what its lane allows. -/
lemma exists_sink_step (helse : elsewhere i action = false) {lane lane' : SinkLane}
    (hlane : t.lanes[i]? = some lane)
    (hcan : run SinkLane.step lane (laneAction i lane.minSeverity action).toList = some lane') :
    ∃ t', step t action = some t' := by
  cases action with
  | lane j act =>
      simp only [elsewhere, Bool.not_eq_false', Bool.and_eq_true, decide_eq_true_eq] at helse
      obtain ⟨rfl, hsink⟩ := helse
      have hpermits : permits t.phase j act = true := by
        cases act with
        | offer | stop | stopped => cases hsink
        | take | finish | cancelled | aborted => rfl
      rw [laneAction, if_pos rfl, Option.toList_some, run] at hcan
      obtain ⟨next, hnext, -⟩ := Option.bind_eq_some_iff.mp hcan
      exact ⟨_, by simp [step, hpermits, hlane, hnext]; rfl⟩
  | process | aclose | drained | next | lanesStopped | sinkClosed | closed => cases helse

namespace SameBut

lemma refl (i : ℕ) (s : Fanout) : SameBut i s s := ⟨rfl, rfl, fun _ _ => rfl, rfl⟩

lemma symm (h : SameBut i s t) : SameBut i t s :=
  ⟨h.phase.symm, h.length.symm, fun j hj => (h.others j hj).symm, h.shell.symm⟩

/-- The sink of the lane does something in one of them. -/
lemma sink (h : SameBut i s t) (helse : elsewhere i action = false)
    (hstep : step s action = some s') : SameBut i s' t := by
  cases stepped hstep with
  | @lane j act lane lane' hpermits hlane hlane' =>
      simp only [elsewhere, Bool.not_eq_false', Bool.and_eq_true, decide_eq_true_eq] at helse
      obtain ⟨rfl, hsink⟩ := helse
      have hlt := (List.getElem?_eq_some_iff.mp hlane).1
      refine ⟨h.phase, h.length.trans List.length_set.symm, ?_, ?_⟩
      · intro k hk
        rw [List.getElem?_set_ne (Ne.symm hk)]
        exact h.others k hk
      · rw [h.shell, hlane, List.getElem?_set_self hlt, Option.map_some, Option.map_some,
          SinkLane.shell_of_ofSink hsink hlane']
  | process | aclose | drained | next | lanesStopped | sinkClosed | closed => cases helse

/-- The lane of the sink, where there is one. -/
lemma exists_lane (h : SameBut i s t) {lane : SinkLane} (hlane : s.lanes[i]? = some lane) :
    ∃ other, t.lanes[i]? = some other ∧ other.shell = lane.shell := by
  have hshell := h.shell
  rw [hlane, Option.map_some, Option.map_eq_some_iff] at hshell
  exact hshell

/-- The same happens in both. -/
lemma step (h : SameBut i s t) (hstep : step s action = some s')
    (hstep' : Fanout.step t action = some t') : SameBut i s' t' := by
  cases stepped hstep with
  | process alert =>
      obtain rfl := Option.some.inj hstep'
      refine ⟨h.phase, ?_, ?_, ?_⟩
      · simp [h.length]
      · intro j hj
        simp [h.others j hj]
      · rw [List.getElem?_map, List.getElem?_map]
        cases hlane : s.lanes[i]? with
        | none =>
            have hnone := h.shell
            rw [hlane, Option.map_none, Option.map_eq_none_iff] at hnone
            rw [hnone]
        | some lane =>
            obtain ⟨other, hother, hshell⟩ := h.exists_lane hlane
            rw [hother, Option.map_some, Option.map_some, Option.map_some, Option.map_some,
              shell_route alert hshell]
  | @lane j act lane lane' hpermits hlane hlane' =>
      cases stepped hstep' with
      | @lane _ _ other other' _ hother hother' =>
          have hlt := (List.getElem?_eq_some_iff.mp hlane).1
          have hlt' := (List.getElem?_eq_some_iff.mp hother).1
          refine ⟨h.phase, by simp [h.length], ?_, ?_⟩
          · intro k hk
            by_cases heq : j = k
            · subst heq
              obtain rfl := Option.some.inj (hlane.symm.trans ((h.others j hk).symm.trans hother))
              obtain rfl := Option.some.inj (hlane'.symm.trans hother')
              rw [List.getElem?_set_self hlt, List.getElem?_set_self hlt']
            · rw [List.getElem?_set_ne heq, List.getElem?_set_ne heq]
              exact h.others k hk
          · by_cases heq : j = i
            · subst heq
              obtain ⟨_, hsame, hshell⟩ := h.exists_lane hlane
              obtain rfl := Option.some.inj (hother.symm.trans hsame)
              rw [List.getElem?_set_self hlt, List.getElem?_set_self hlt', Option.map_some,
                Option.map_some, SinkLane.shell_step hshell hlane' hother']
            · rw [List.getElem?_set_ne heq, List.getElem?_set_ne heq]
              exact h.shell
  | @next k lane hphase hlane hreturned =>
      cases stepped hstep' with
      | @next k' other hphase' hother hreturned' =>
          rw [h.phase, hphase, Phase.stopping.injEq] at hphase'
          exact ⟨by rw [hphase'], h.length, h.others, h.shell⟩
  | @sinkClosed k hphase hlt =>
      cases stepped hstep' with
      | @sinkClosed k' hphase' hlt' =>
          rw [h.phase, hphase, Phase.closing.injEq] at hphase'
          exact ⟨by rw [hphase'], h.length, h.others, h.shell⟩
  | aclose | drained | lanesStopped | closed =>
      cases stepped hstep'
      exact ⟨rfl, h.length, h.others, h.shell⟩

/-- What happens in one of them can happen in the other if the lane of the sink allows it. -/
lemma exists_step (h : SameBut i s t) (hstep : Fanout.step s action = some s')
    {lane lane' : SinkLane} (hlane : t.lanes[i]? = some lane)
    (hcan : run SinkLane.step lane (laneAction i lane.minSeverity action).toList = some lane') :
    ∃ t', Fanout.step t action = some t' := by
  cases stepped hstep with
  | process alert => exact ⟨_, rfl⟩
  | @lane j act other other' hpermits hother hother' =>
      rw [← h.phase] at hpermits
      by_cases heq : j = i
      · subst heq
        rw [laneAction, if_pos rfl, Option.toList_some, run] at hcan
        obtain ⟨next, hnext, -⟩ := Option.bind_eq_some_iff.mp hcan
        exact ⟨_, by simp [Fanout.step, hpermits, hlane, hnext]; rfl⟩
      · rw [← h.others j heq] at hother
        exact ⟨_, by simp [Fanout.step, hpermits, hother, hother']; rfl⟩
  | @next k other hphase hother hreturned =>
      rw [← h.phase] at hphase
      have hnext : ∃ next, t.lanes[k]? = some next ∧ next.stopping = .returned := by
        by_cases heq : k = i
        · subst heq
          obtain ⟨next, hnext, hshell⟩ := h.exists_lane hother
          simp only [SinkLane.shell, Prod.mk.injEq, decide_eq_decide] at hshell
          exact ⟨next, hnext, hshell.2.2.mpr hreturned⟩
        · exact ⟨other, (h.others k heq).trans hother, hreturned⟩
      obtain ⟨next, hnext, hreturned'⟩ := hnext
      exact ⟨_, by simp [Fanout.step, hphase, hnext, hreturned']; rfl⟩
  | aclose hphase => exact ⟨_, by simp [Fanout.step, h.phase, hphase]; rfl⟩
  | drained hphase => exact ⟨_, by simp [Fanout.step, h.phase, hphase]; rfl⟩
  | lanesStopped hphase => exact ⟨_, by simp [Fanout.step, h.phase, hphase, h.length]; rfl⟩
  | sinkClosed hphase hlt =>
      exact ⟨_, by simp [Fanout.step, h.phase, hphase, h.length, hlt]; rfl⟩
  | closed hphase => exact ⟨_, by simp [Fanout.step, h.phase, hphase, h.length]; rfl⟩

/-- What the sink of the lane does before the next action elsewhere is passed over. -/
lemma skip (h : SameBut i s t) {actions : List Action}
    (hrun : StepSystem.run Fanout.step s actions = some s') :
    actions.filter (elsewhere i) = [] ∧ SameBut i s' t ∨
      ∃ action rest s₁ s₂,
        actions.filter (elsewhere i) = action :: rest.filter (elsewhere i) ∧ SameBut i s₁ t ∧
          Fanout.step s₁ action = some s₂ ∧ StepSystem.run Fanout.step s₂ rest = some s' := by
  induction actions generalizing s with
  | nil =>
      obtain rfl := Option.some.inj hrun
      exact Or.inl ⟨rfl, h⟩
  | cons action actions ih =>
      obtain ⟨u, hu, hrun⟩ := Option.bind_eq_some_iff.mp hrun
      cases helse : elsewhere i action with
      | true => exact Or.inr ⟨action, actions, s, u, List.filter_cons_of_pos helse, h, hu, hrun⟩
      | false =>
          rw [List.filter_cons_of_neg (Bool.eq_false_iff.mp helse)]
          exact ih (h.sink helse hu) hrun

/-- **What one sink does is not seen elsewhere.**  From two fan-outs that may differ in what the
sink of lane `i` did, the same actions elsewhere lead to two such fan-outs again, whatever that sink
does in between that its lane allows. -/
theorem run (h : SameBut i s t) {lane lane' : SinkLane} (hlane : t.lanes[i]? = some lane)
    {actions actions' : List Action} (hrun : StepSystem.run Fanout.step s actions = some s')
    (hsame : actions'.filter (elsewhere i) = actions.filter (elsewhere i))
    (hcan : StepSystem.run SinkLane.step lane (laneActions i lane.minSeverity actions') =
      some lane') :
    ∃ t', StepSystem.run Fanout.step t actions' = some t' ∧ SameBut i s' t' := by
  induction actions' generalizing s t lane actions with
  | nil =>
      rcases h.skip hrun with ⟨-, hend⟩ | ⟨action, rest, s₁, s₂, hfilter, -⟩
      · exact ⟨t, rfl, hend⟩
      · rw [hfilter] at hsame
        cases hsame
  | cons action actions' ih =>
      rw [laneActions_cons, run_append] at hcan
      obtain ⟨next, hnext, hcan⟩ := Option.bind_eq_some_iff.mp hcan
      -- once the action is done in `t`, the rest is the induction hypothesis
      have hgo : ∀ {u t₁ rest}, Fanout.step t action = some t₁ → SameBut i u t₁ →
          StepSystem.run Fanout.step u rest = some s' →
          actions'.filter (elsewhere i) = rest.filter (elsewhere i) →
          ∃ t', StepSystem.run Fanout.step t (action :: actions') = some t' ∧ SameBut i s' t' := by
        intro u t₁ rest ht₁ hu hrest hfilter
        obtain ⟨lane₁, hlane₁, hseverity, hfirst⟩ := step_lane ht₁ hlane
        obtain rfl := Option.some.inj (hnext.symm.trans hfirst)
        rw [← hseverity] at hcan
        obtain ⟨t', ht', hend⟩ := ih hu hlane₁ hrest hfilter hcan
        exact ⟨t', by rw [StepSystem.run, ht₁]; exact ht', hend⟩
      cases helse : elsewhere i action with
      | true =>
          rw [List.filter_cons_of_pos helse] at hsame
          rcases h.skip hrun with ⟨hnil, -⟩ | ⟨action₁, rest, s₁, s₂, hfilter, hs₁, hs₂, hrest⟩
          · rw [hnil] at hsame
            cases hsame
          · rw [hfilter] at hsame
            obtain ⟨rfl, hfilter'⟩ := List.cons.inj hsame
            obtain ⟨t₁, ht₁⟩ := hs₁.exists_step hs₂ hlane hnext
            exact hgo ht₁ (hs₁.step hs₂ ht₁) hrest hfilter'
      | false =>
          rw [List.filter_cons_of_neg (Bool.eq_false_iff.mp helse)] at hsame
          obtain ⟨t₁, ht₁⟩ := exists_sink_step helse hlane hnext
          exact hgo ht₁ (h.symm.sink helse ht₁).symm hrun hsame

end SameBut

/-! ## A sink that hangs -/

/-- `aclose` awaits the worker of lane `i`, which has not ended, and the lanes after it have not
been stopped. -/
structure Awaits (i : ℕ) (s : Fanout) : Prop where
  phase : s.phase = .stopping i
  worker : ∃ lane, s.lanes[i]? = some lane ∧ lane.worker ≠ .done ∧ ∃ n, lane.stopping = .awaiting n
  after : ∀ j lane, i < j → s.lanes[j]? = some lane → lane.stopping = .notCalled

namespace Awaits

/-- As long as the sink of lane `i` does nothing, `aclose` goes on to wait. -/
lemma step (h : Awaits i s) (helse : elsewhere i action = true)
    (hstep : step s action = some s') : Awaits i s' := by
  obtain ⟨lane, hlane, hdone, n, hawaiting⟩ := h.worker
  cases stepped hstep with
  | process alert =>
      refine ⟨h.phase, ⟨route alert lane, by simp [hlane], ?_⟩, ?_⟩
      · unfold route
        split_ifs
        · exact ⟨by cases hworker : lane.worker <;> simp_all [SinkLane.offer], n, hawaiting⟩
        · exact ⟨hdone, n, hawaiting⟩
      · intro j other hj hother
        rw [List.getElem?_map, Option.map_eq_some_iff] at hother
        obtain ⟨before, hbefore, rfl⟩ := hother
        unfold route
        split_ifs <;> exact h.after j before hj hbefore
  | @lane j act before after hpermits hbefore hafter =>
      have hlt := (List.getElem?_eq_some_iff.mp hbefore).1
      refine ⟨h.phase, ?_, ?_⟩
      · by_cases heq : j = i
        · subst heq
          obtain rfl := Option.some.inj (hbefore.symm.trans hlane)
          -- what is left of lane `i` is done by `aclose`, which waits
          cases SinkLane.stepped hafter with
          | offer => cases hpermits
          | stop hstopping => cases hawaiting.symm.trans hstopping
          | stopped _ hworker => exact absurd hworker hdone
          | take | finish | endWaiting | endDelivering | aborted =>
              simp [elsewhere, LaneAction.ofSink] at helse
        · exact ⟨lane, by rw [List.getElem?_set_ne heq, hlane], hdone, n, hawaiting⟩
      · intro k other hk hother
        by_cases heq : j = k
        · subst heq
          obtain rfl := Option.some.inj ((List.getElem?_set_self hlt).symm.trans hother)
          rw [SinkLane.stopping_step hafter ?_ ?_]
          · exact h.after j before hk hbefore
          · rintro rfl
            simp [permits, h.phase] at hpermits
            omega
          · rintro rfl
            simp [permits, h.phase] at hpermits
            omega
        · rw [List.getElem?_set_ne heq] at hother
          exact h.after k other hk hother
  | @next k other hphase hother hreturned =>
      obtain rfl := Phase.stopping.inj (h.phase.symm.trans hphase)
      obtain rfl := Option.some.inj (hlane.symm.trans hother)
      cases hawaiting.symm.trans hreturned
  | lanesStopped hphase =>
      obtain rfl := Phase.stopping.inj (h.phase.symm.trans hphase)
      exact absurd (List.getElem?_eq_some_iff.mp hlane).1 (Nat.lt_irrefl _)
  | aclose hphase | drained hphase | sinkClosed hphase | closed hphase =>
      cases h.phase.symm.trans hphase

lemma run {actions : List Action} (h : Awaits i s)
    (helse : ∀ action ∈ actions, elsewhere i action = true)
    (hrun : StepSystem.run Fanout.step s actions = some t) : Awaits i t :=
  run_invariant_of (fun _ _ _ hu ha hstep => hu.step ha hstep) _ _ _ h helse hrun

end Awaits

/-! ## What happens to the notifications -/

variable {sinks : List (ℕ × ℕ)}

/-- The worker hangs in the first delivery, and `aclose` cancels it with another notification in the
queue.  Something may happen while `stop` awaits the worker. -/
def hungRun (between : List Action) : List Action :=
  [.process hungAlert, .lane 0 .take, .process hungAlert, .aclose, .drained, .lane 0 .stop] ++
    (between ++ [.lane 0 .cancelled, .lane 0 .stopped, .next, .lanesStopped, .sinkClosed, .closed])

/-- The phase and the first lane at the end of a run on one sink, with what was offered, delivered,
dropped and cut off and the errors, and what happened after the stop was called. -/
def counters (actions : List Action) : Option (Phase × List ℕ × ℕ × Bool) :=
  (run step (new [(0, 1000)]) actions).bind fun s => s.lanes[0]?.map fun lane =>
    (s.phase, [lane.offered.length, lane.delivered, lane.errors, lane.dropped, lane.cutCount],
      lane.late.length, lane.endedLate)

/-- The first of two sinks hangs, and `aclose` awaits its worker. -/
def hungStop : List Action :=
  [.process hungAlert, .lane 0 .take, .aclose, .drained, .lane 0 .stop]

end Fanout

end Sentinel.Alerting
