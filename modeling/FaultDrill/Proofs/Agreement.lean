import FaultDrill.Proofs.Departures
import FaultDrill.Proofs.Draws
set_option autoImplicit false

namespace FaultDrill

namespace Network
open RunParameters

variable {size : UInt32} {greeting : Rank → String}
  {choice : Rank → Except ComponentError RunParameters}
  {steps : List (Step (Except GroupError RunReport))} {net : Network (Except GroupError RunReport)}
  {places : Rank → Situation}

theorem injections_eq {who : Rank} (only : ∀ injection ∈ injections steps, injection.1 = who) :
    injections steps = (injectedBy steps who).map (who, ·) := by
  unfold injectedBy
  generalize injections steps = all at only ⊢
  induction all with
  | nil => rfl
  | cons injection all ih =>
    obtain ⟨r, code⟩ := injection
    obtain rfl : r = who := only _ List.mem_cons_self
    have hfirst : (if r = r then some code else none) = some code := if_pos rfl
    rw [List.filterMap_cons, hfirst, List.map_cons,
      ← ih fun injection hi => only injection (List.mem_cons_of_mem _ hi)]

theorem mem_injectedBy {who : Rank} {code : FaultCode} (h : (who, code) ∈ injections steps) :
    code ∈ injectedBy steps who :=
  List.mem_filterMap.mpr ⟨_, h, if_pos rfl⟩

namespace Faulty

variable (h : Faulty size greeting choice steps net places)
include h

theorem injections_eq : injections steps = (places (announced choice).agreed.failing).injected.map
    ((announced choice).agreed.failing, ·) := by
  rw [(h.injected _).1]
  refine Network.injections_eq fun injection hi => ?_
  have hmem := mem_injectedBy hi
  rw [← (h.injected injection.1).1] at hmem
  exact ((h.injected injection.1).2.2 _ hmem).1

theorem injections_cases : injections steps = [] ∨ injections steps =
    [((announced choice).agreed.failing, (announced choice).agreed.fault)] := by
  obtain ⟨-, hle, strikes⟩ := h.injected (announced choice).agreed.failing
  rw [h.injections_eq]
  match hi : (places (announced choice).agreed.failing).injected with
  | [] => exact .inl rfl
  | [code] =>
    rw [hi] at strikes
    obtain ⟨-, rfl⟩ := strikes code (List.mem_singleton_self _)
    exact .inr rfl
  | _ :: _ :: _ =>
    rw [hi] at hle
    simp at hle

theorem ended {who : Rank} {result : Except GroupError RunReport}
    (has : net.result? who = some result) : ∃ before,
      Plan.FaultyEnds size greeting choice before who result ∧
      (places who).injected = before.injected ∧ ∀ r,
        ((places who).standing r).turn = (before.standing r).turn ∧
        ((before.standing r).status = .lost → ((places who).standing r).status = .lost) :=
  h.concluded has

section Present

variable (concise : Concise size greeting) (stays : ∀ who, ¬Crashed steps who)
include concise stays

omit concise stays in
theorem result_isSome (fidelity : Fidelity size steps net) (rest : AtRest size net) {who : Rank}
    (hw : who ∈ Rank.everybody size) (stays : ¬Crashed steps who) : (net.result? who).isSome := by
  obtain ⟨result, doing⟩ := (h.rest fidelity rest hw).resolve_left stays
  rw [result_left doing]
  rfl

theorem coordinator_succeeds {parameters : RunParameters}
    (chosen : choice .coordinator = .ok parameters) {result : Except GroupError RunReport}
    (has : net.result? .coordinator = some result) :
    ∃ report, result = .ok report ∧ report.parameters = (announced choice).agreed ∧
      (.coordinator = (announced choice).agreed.failing →
        (places .coordinator).injected = [(announced choice).agreed.fault]) := by
  obtain ⟨before, ends, injected, standing⟩ := h.ended has
  cases ends with
  | member mem => exact absurd mem (Rank.coordinator_not_mem size)
  | coordinator ends =>
    cases ends with
    | completed _ struck => exact ⟨_, rfl, rfl, fun chosen => injected.trans (struck chosen)⟩
    | terminated _ struck => exact ⟨_, rfl, rfl, fun _ => injected.trans struck⟩
    | @departed r mem lost turn _ =>
      obtain ⟨hturn, hlost⟩ := standing r
      have hmissing := h.member_missing concise mem (hlost lost) (by omega)
      rcases hmissing.2 with crashed | ⟨-, six⟩
      · exact absurd crashed (stays r)
      · have behind := hmissing.1
        omega
    | @unexpected r mem unchosen lost turn =>
      obtain ⟨hturn, hlost⟩ := standing r
      rcases (h.member_missing concise mem (hlost lost) (by omega)).2 with crashed | ⟨failing, -⟩
      · exact absurd crashed (stays r)
      · exact absurd failing unchosen
    | refused refuses =>
      rw [chosen] at refuses
      cases refuses

theorem member_succeeds {parameters : RunParameters}
    (chosen : choice .coordinator = .ok parameters) {m : Rank}
    (hm : m ∈ Rank.members size) {result : Except GroupError RunReport}
    (has : net.result? m = some result) :
    ∃ report, result = .ok report ∧ report.parameters = (announced choice).agreed ∧
      (m = (announced choice).agreed.failing →
        (places m).injected = [(announced choice).agreed.fault]) := by
  obtain ⟨before, ends, injected, standing⟩ := h.ended has
  cases ends with
  | coordinator => exact absurd rfl (Rank.member_ne hm)
  | member _ ends =>
    cases ends with
    | completed _ struck => exact ⟨_, rfl, rfl, fun chosen => injected.trans (struck chosen)⟩
    | terminated _ struck => exact ⟨_, rfl, rfl, fun _ => injected.trans struck⟩
    | orphaned failing =>
      refine ⟨_, rfl, rfl, fun self => ?_⟩
      exact absurd (self.trans failing) (Rank.member_ne hm)
    | bereft lost last unchosen =>
      obtain ⟨hturn, hlost⟩ := standing .coordinator
      rcases h.coordinator_missing hm (hlost lost) (by omega) with
        crashed | ⟨_, has', ⟨error, rfl, -⟩ | ⟨failing, -, hne, hle, -⟩⟩
      · exact absurd crashed (stays .coordinator)
      · obtain ⟨report, hr, -⟩ := h.coordinator_succeeds concise stays chosen has'
        cases hr
      · have hcases := unchosen failing
        omega
    | oversized large => exact absurd large (Frame.packet_ne_error (concise m hm) _)

end Present
end Faulty

/-- When nobody crashes, every run that ends does so with a report, all of them have the parameters
that arrive when the coordinator's choice is sent, and the participant that these choose is given
their fault, exactly once by the time its run has ended; nobody else is given any. Once nobody
can go on, every run has ended. -/
theorem faulty_group_agrees {sleep : Option UInt64} {fault : Option FaultCode} {attempts : Nat}
    {draws rest : Draws} {start : Network (Except GroupError RunReport)} (inhabited : size ≠ 0)
    (resolves : resolve? sleep fault size attempts draws = some (choice .coordinator, rest))
    (concise : Concise size greeting)
    (begins : Bootstrapped size (Schedule.faultyGroup size greeting choice) start)
    (run : Execution start steps net) (sound : ∀ step ∈ steps, step.move.IsSound)
    (stays : ∀ who, ¬Crashed steps who) :
    ∃ parameters p, choice .coordinator = .ok parameters ∧
      Wire.decode (Wire.encode parameters) = .ok p ∧ p.failing.index < size ∧
      (∀ who result, net.result? who = some result →
        ∃ report, result = .ok report ∧ report.parameters = p) ∧
      (injections steps = [] ∨ injections steps = [(p.failing, p.fault)]) ∧
      ((net.result? p.failing).isSome → injections steps = [(p.failing, p.fault)]) ∧
      (AtRest size net → ∀ who ∈ Rank.everybody size, (net.result? who).isSome) := by
  obtain ⟨places, h⟩ : ∃ places, Faulty size greeting choice steps net places :=
    run.coherent begins sound fun r hr => Plan.faulty_fulfils hr
  obtain ⟨parameters, chosen, hlt⟩ := resolve_ok inhabited resolves
  obtain rfl := announced_eq chosen
  have succeeds : ∀ who result, net.result? who = some result → ∃ report, result = .ok report ∧
      report.parameters = (announced choice).agreed ∧ (who = (announced choice).agreed.failing →
        (places who).injected = [(announced choice).agreed.fault]) := by
    intro who result has
    obtain ⟨before, ends, -⟩ := h.ended has
    cases ends with
    | coordinator => exact h.coordinator_succeeds concise stays chosen has
    | member hm => exact h.member_succeeds concise stays chosen hm has
  refine ⟨_, (announced choice).agreed, chosen, decode_encode _, hlt, fun who result has => ?_,
    h.injections_cases, fun returned => ?_,
    fun rest who hw => h.result_isSome (run.fidelity begins) rest hw (stays who)⟩
  · obtain ⟨report, hr, hp, -⟩ := succeeds who result has
    exact ⟨report, hr, hp⟩
  · obtain ⟨result, has⟩ := Option.isSome_iff_exists.mp returned
    obtain ⟨report, -, -, struck⟩ := succeeds _ result has
    rw [h.injections_eq, struck rfl]
    rfl

def twoChoice (_ : Rank) : Except ComponentError RunParameters := .ok ⟨1, .fallback, ⟨1⟩⟩

def twoDrill : Network (Except GroupError RunReport) :=
  formed 2 (Schedule.faultyGroup 2 (fun _ => "hello") twoChoice)

theorem faulty_group_agrees_two : ∃ steps net, Execution twoDrill steps net ∧
    (net.result? .coordinator).isSome ∧ (net.result? ⟨1⟩).isSome ∧
    (∀ who result, net.result? who = some result → ∃ report, result = .ok report ∧
      report.parameters = ⟨1, FaultCode.fallback.canonical, ⟨1⟩⟩) ∧
    injections steps = [(⟨1⟩, FaultCode.fallback.canonical)] := by
  let go (who : Rank) (count : Nat) : List Move :=
    .replicate count (.proceed who ⟨true, .terminated, none⟩)
  let moves := go ⟨1⟩ 2 ++ go ⟨0⟩ 3 ++ go ⟨1⟩ 7 ++ go ⟨0⟩ 9 ++ go ⟨1⟩ 3 ++ go ⟨0⟩ 4 ++ go ⟨1⟩ 6 ++
    go ⟨0⟩ 5 ++ [.leave ⟨1⟩] ++ go ⟨0⟩ 12
  have ends : ((twoDrill.execute? moves).any fun result =>
      (result.2.result? .coordinator).isSome && (result.2.result? ⟨1⟩).isSome) = true := by
    decide +kernel
  have own : ∀ move ∈ moves, move.IsOwn ∧ move.IsSound := by decide
  obtain ⟨⟨steps, net⟩, he, hends⟩ := (Option.any_eq_true _ _).mp ends
  obtain ⟨run, hmoves⟩ := execution_of_execute he
  obtain ⟨first, second⟩ := Bool.and_eq_true_iff.mp hends
  have ownSteps : ∀ step ∈ steps, step.move.IsOwn ∧ step.move.IsSound :=
    fun step hs => own _ (hmoves ▸ List.mem_map_of_mem hs)
  have resolves : resolve? (some 1) none 2 1 (Draws.ofList [2147483648]) =
      some (twoChoice .coordinator, (Draws.ofList [2147483648]).drop 1) := rfl
  have short : (Wire.encode (Dialogue.line "hello").frame).length ≤ Frame.maxLength := by
    decide +kernel
  obtain ⟨parameters, p, chosen, decodes, -, agrees, -, injected, -⟩ :=
    faulty_group_agrees (by decide) resolves (fun _ _ => short) .formed run
      (fun step hs => (ownSteps step hs).2)
      fun who => not_crashed fun step hs _ => (ownSteps step hs).1
  cases chosen
  rw [decode_encode] at decodes
  cases decodes
  exact ⟨steps, net, run, first, second, agrees, injected second⟩

end Network
end FaultDrill
