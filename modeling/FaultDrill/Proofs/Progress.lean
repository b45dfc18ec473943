import FaultDrill.Proofs.Coherence
set_option autoImplicit false

namespace FaultDrill.Network

variable {α : Type} {plan : Plan} {post : Rank → Situation → α → Prop} {steps : List (Step α)}
  {net net' : Network α} {places : Rank → Situation} {who : Rank}

def HasLeft (net : Network α) (who : Rank) : Prop :=
  ∃ result, net.activity? who = some (.left result)

/-- A participant can go on whatever is left open, or has ended and can leave. -/
def CanMove (net : Network α) (who : Rank) : Prop :=
  (∀ choice, (net.proceed? who choice).isSome) ∨ (net.leave? who).isSome

/-- Nobody of the group can go on. -/
def AtRest (size : UInt32) (net : Network α) : Prop := ∀ r ∈ Rank.everybody size, ¬CanMove net r

/-- A participant that waits for what another one has not said yet. -/
structure WaitsFor (plan : Plan) (places : Rank → Situation) (who peer : Rank) : Prop where
  mem : peer ∈ who.peers plan.size
  turn : ∃ frame, (plan.between who peer)[((places who).standing peer).turn]? =
    some ⟨(Plan.side who).other, frame⟩
  engaged : ((places peer).standing who).status = .engaged
  behind : ((places peer).standing who).turn ≤ ((places who).standing peer).turn

namespace Coherent

theorem waits (h : Coherent plan post steps net places)
    (fidelity : Fidelity plan.size steps net) (hw : who ∈ Rank.everybody plan.size)
    (stays : ¬HasLeft net who) :
    CanMove net who ∨ ∃ peer, WaitsFor plan places who peer := by
  obtain ⟨activity, doing, does⟩ := h.does who hw
  cases activity with
  | left result => exact absurd ⟨result, doing⟩ stays
  | running rest =>
    cases rest with
    | done result => exact .inl (.inr (leave_isSome doing))
    | ask action next => exact .inl (.inl fun choice => proceed_isSome doing trivial)
  | calling call rest next =>
    cases rest with
    | done answer => exact .inl (.inl fun choice => proceed_isSome doing trivial)
    | ask exchange rest =>
      obtain ⟨c, hc, -⟩ := h.star.communicator hw
      cases exchange with
      | send | hangUp | note =>
        exact .inl (.inl fun choice => proceed_isSome doing (exchange_isSome hc choice nofun))
      | take peer wanted =>
        obtain ⟨⟨hp, due⟩, -⟩ := does
        obtain ⟨hp', hw', -⟩ := Rank.peers_symm hw hp
        obtain ⟨own, ho⟩ := h.star.end_isSome hw hp
        obtain ⟨old, hold⟩ := h.star.end_isSome hp' hw'
        have joined := h.joined who hw peer hp own old ho hold
        obtain ⟨arrived, hf⟩ := fidelity.faithful who peer own ho
        rcases due with hlost | ⟨engaged, frame, -, ht⟩
        · have dead : own.live = false := by
            refine Bool.eq_false_iff.mpr fun live => ?_
            rw [joined.own.live.mp live] at hlost
            cases hlost
          exact .inl (.inl fun choice => proceed_isSome doing
            (take_isSome ho hf.holds (.inr (.inl dead))))
        · by_cases hthere : ((places peer).standing who).status = .engaged
          · rcases joined.arrived engaged ht rfl hf.holds with ⟨-, behind⟩ | ⟨-, harrived⟩
            · exact .inr ⟨peer, hp, ⟨frame, ht⟩, hthere, behind⟩
            · have hne : arrived ≠ [] := by rw [harrived]; exact List.cons_ne_nil _ _
              exact .inl (.inl fun choice => proceed_isSome doing
                (take_isSome ho hf.holds (.inl hne)))
          · have closed : net.isOpen peer who = false := by
              rw [isOpen_of_end hold]
              exact Bool.eq_false_iff.mpr fun live => hthere (joined.peer.live.mp live)
            exact .inl (.inl fun choice => proceed_isSome doing
              (take_isSome ho hf.holds (.inr (.inr (.inr closed)))))

theorem stays (h : Coherent plan post steps net places) {peer : Rank}
    (engaged : ((places who).standing peer).status = .engaged) :
    ¬HasLeft net who := by
  rintro ⟨result, doing⟩
  obtain ⟨before, hs, -⟩ := (h.doing doing).2
  rw [hs] at engaged
  cases hb : (before.standing peer).status <;> simp [Situation.close, Standing.close, hb] at engaged

/-- Two participants never wait for each other: it is only one's turn. -/
theorem not_mutual {peer : Rank} (hw : who ∈ Rank.everybody plan.size)
    (waits : WaitsFor plan places who peer) (back : WaitsFor plan places peer who) : False := by
  have hturn := Nat.le_antisymm waits.behind back.behind
  obtain ⟨frame, ht⟩ := waits.turn
  obtain ⟨frame', ht'⟩ := back.turn
  rw [hturn, Plan.between_comm hw waits.mem, ht, Plan.side_other hw waits.mem,
    Side.other_other] at ht'
  exact Side.other_ne _ (congrArg Turn.speaker (Option.some.inj ht'))

/-- As long as somebody is there, somebody can go on. -/
theorem progress (h : Coherent plan post steps net places)
    (fidelity : Fidelity plan.size steps net) (hw : who ∈ Rank.everybody plan.size)
    (stays : ¬HasLeft net who) :
    ∃ r ∈ Rank.everybody plan.size, ¬HasLeft net r ∧ CanMove net r := by
  -- From the coordinator one step is enough: the one it waits for waits for nobody else.
  have hub : ¬HasLeft net .coordinator →
      ∃ r ∈ Rank.everybody plan.size, ¬HasLeft net r ∧ CanMove net r := by
    intro stays
    have hc : Rank.coordinator ∈ Rank.everybody plan.size := Rank.coordinator_mem_everybody _
    rcases h.waits fidelity hc stays with can | ⟨member, waits⟩
    · exact ⟨_, hc, stays, can⟩
    · have hm := (Rank.peers_symm hc waits.mem).1
      have stays' := h.stays waits.engaged
      rcases h.waits fidelity hm stays' with can | ⟨peer, back⟩
      · exact ⟨member, hm, stays', can⟩
      · have hp : peer = .coordinator := by
          have hmem := back.mem
          rw [Rank.peers_member waits.mem] at hmem
          exact List.mem_singleton.mp hmem
        subst hp
        exact absurd back (not_mutual hc waits)
  rcases h.waits fidelity hw stays with can | ⟨peer, waits⟩
  · exact ⟨who, hw, stays, can⟩
  · rcases Rank.mem_everybody.mp hw with rfl | hm
    · exact hub stays
    · have hp : peer = .coordinator := by
        have hmem := waits.mem
        rw [Rank.peers_member hm] at hmem
        exact List.mem_singleton.mp hmem
      subst hp
      exact hub (h.stays waits.engaged)

/-- When nobody can go on, everybody has left, and whoever has not crashed with a result. -/
theorem rest (h : Coherent plan post steps net places) (fidelity : Fidelity plan.size steps net)
    (rest : AtRest plan.size net) (hw : who ∈ Rank.everybody plan.size) :
    Crashed steps who ∨ ∃ result, net.activity? who = some (.left (some result)) := by
  obtain ⟨result, doing⟩ : HasLeft net who := by
    refine Classical.byContradiction fun stays => ?_
    obtain ⟨r, hr, -, can⟩ := h.progress fidelity hw stays
    exact rest r hr can
  cases result with
  | none => exact .inl (h.crashed who doing)
  | some result => exact .inr ⟨result, doing⟩

end Coherent

end FaultDrill.Network
