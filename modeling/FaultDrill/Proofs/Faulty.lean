import FaultDrill.Proofs.Opening
import FaultDrill.Proofs.Packet
set_option autoImplicit false

namespace FaultDrill
open Text

theorem Text.Utf8.length_encode_le (text : String) :
    (Utf8.encode text).length ≤ 4 * text.length := by
  have hlist : ∀ chars : List Char,
      (chars.flatMap String.utf8EncodeChar).length ≤ 4 * chars.length := by
    intro chars
    induction chars with
    | nil => exact Nat.le_refl 0
    | cons c chars ih =>
      have hc := c.utf8Size_le_four
      rw [List.flatMap_cons, List.length_append, List.length_cons, String.length_utf8EncodeChar]
      omega
  exact hlist text.toList

theorem Frame.line_fits {text : String} (h : text.length ≤ 100) (error : ComponentError) :
    (Dialogue.line text).frame.packet ≠ .error error := by
  have hlength := Utf8.length_encode_le text
  refine packet_ne_error ?_ error
  rw [Dialogue.line, length_encode_data, maxLength]
  omega

theorem Rank.farewell_fits (rank : Rank) (error : ComponentError) :
    (Dialogue.line rank.farewell).frame.packet ≠ .error error := by
  have hindex : rank.index.toNat < 10 ^ 10 :=
    Nat.lt_of_lt_of_le rank.index.toNat_lt (by decide)
  have hdigits : rank.index.toNat.repr.length ≤ 10 :=
    (Nat.length_repr_le_iff (by decide)).mpr hindex
  refine Frame.line_fits ?_ error
  change ("goodbye from rank " ++ rank.index.toNat.repr).length ≤ 100
  rw [String.length_append]
  exact Nat.le_trans (Nat.add_le_add_left hdigits 18) (by decide)

/-- What arrives when parameters are sent. -/
def RunParameters.agreed (p : RunParameters) : RunParameters :=
  { p with fault := p.fault.canonical }

theorem RunParameters.decode_encode (p : RunParameters) :
    Wire.decode (Wire.encode p) = .ok p.agreed :=
  (Wire.reads_runParameters p).decode_eq

theorem RunParameters.told_fits (p : RunParameters) (error : ComponentError) :
    (Frame.broadcast (Wire.encode p)).packet ≠ .error error := by
  refine Frame.packet_ne_error ?_ error
  have hlength : (Wire.encode p).length = 16 := by
    change (Wire.littleEndian 8 p.sleepSeconds.toNat ++
      Wire.littleEndian 4 p.fault.toInt32.toUInt32.toNat ++
      Wire.littleEndian 4 p.failing.index.toNat).length = 16
    simp only [List.length_append, Wire.length_littleEndian]
  rw [Frame.length_encode_broadcast, hlength]
  decide

def Dialogue.faulty (greeting : String) (told : RunParameters) (member : Rank) : Dialogue :=
  opening greeting (Wire.encode told) ++ meeting ++ [line member.farewell]

/-- What a group does in which the coordinator has these parameters to tell. -/
def Plan.faulty (size : UInt32) (greeting : Rank → String) (told : RunParameters) : Plan where
  size := size
  dialogue m := Dialogue.faulty (greeting m) told m
  strikes who code := who = told.agreed.failing ∧ code = told.agreed.fault

namespace Plan
open Dialogue

variable {size : UInt32} {greeting : Rank → String} {told : RunParameters} {who : Rank}
  {s : Situation} {choice : Except ComponentError RunParameters}

/-- How the run of a member can end, and where it is then. -/
inductive MemberEnds (who : Rank) (greeting : String) (agreed : RunParameters) (s : Situation) :
    Except GroupError RunReport → Prop
  | completed (standing : s.standing .coordinator = ⟨9, .shut⟩)
      (struck : who = agreed.failing → s.injected = [agreed.fault]) :
      MemberEnds who greeting agreed s (.ok ⟨who, agreed, [], [], .completed⟩)
  | terminated (chosen : who = agreed.failing) (struck : s.injected = [agreed.fault])
      (standing : s.standing .coordinator = ⟨6, .engaged⟩) :
      MemberEnds who greeting agreed s (.ok ⟨who, agreed, [], [], .terminated⟩)
  | orphaned (chosen : agreed.failing = .coordinator)
      (lost : (s.standing .coordinator).status = .lost)
      (first : 6 ≤ (s.standing .coordinator).turn) (last : (s.standing .coordinator).turn ≤ 7) :
      MemberEnds who greeting agreed s (.ok ⟨who, agreed, [], [], .coordinatorLost⟩)
  | bereft (lost : (s.standing .coordinator).status = .lost)
      (last : (s.standing .coordinator).turn ≤ 8)
      (unchosen : agreed.failing = .coordinator → (s.standing .coordinator).turn < 6 ∨
        (s.standing .coordinator).turn = 8) :
      MemberEnds who greeting agreed s (.error .coordinatorLost)
  | oversized {error : ComponentError} (large : (line greeting).frame.packet = .error error)
      (standing : s.standing .coordinator = ⟨2, .engaged⟩) :
      MemberEnds who greeting agreed s (.error (.component error))

theorem strike_goes {post : Situation → Except GroupError FaultOutcome → Prop}
    (fresh : s.injected = [])
    (chosen : who = told.agreed.failing → ∀ outcome,
      post { s with injected := [told.agreed.fault] } (.ok outcome))
    (spared : who ≠ told.agreed.failing → post s (.ok .survived)) :
    (faulty size greeting told).Goes who post s (Schedule.strike who told.agreed) := by
  unfold Schedule.strike
  by_cases h : who = told.agreed.failing
  · have hm : told.agreed.mustFail who = true := by simp [RunParameters.mustFail, h]
    rw [if_pos hm]
    exact .bind (.note _ _ _ (.inject ⟨⟨h, rfl⟩, fresh⟩ (chosen h)))
  · have hm : ¬told.agreed.mustFail who = true := by
      simpa [RunParameters.mustFail] using fun h' => h h'.symm
    rw [if_neg hm]
    exact .pure (spared h)

section Member

variable (hm : who ∈ Rank.members (faulty size greeting told).size)
include hm

theorem member_part {report : RunReport} (hs : s.standing .coordinator = ⟨8, .engaged⟩) :
    (faulty size greeting told).Goes who (fun s' result =>
      (result = .ok { report with farewells := [] } ∧ s'.injected = s.injected ∧
        s'.standing .coordinator = ⟨9, .shut⟩) ∨
      (result = .error .coordinatorLost ∧ Bereft s s' 8 8)) s
      (Schedule.part ⟨who, size, greeting who⟩ report) := by
  have hc := Rank.isCoordinator_member hm
  unfold Schedule.part Schedule.exchangeFarewells
  refine .bind ?_
  rw [if_neg (by simp [hc])]
  refine .bind ((member_line hm hs rfl).mono ?_)
  rintro s' result (⟨rfl, h⟩ | ⟨rfl, h⟩ | ⟨-, error, he, -⟩)
  · refine .pure (.bind (.finalize fun c fits =>
      (finalize_keeps fun peer hp engaged => ?_).mono ?_))
    · have hpeers : who.peers (faulty size greeting told).size = [.coordinator] :=
        Rank.peers_member hm
      rw [hpeers] at hp
      obtain rfl := List.mem_singleton.mp hp
      rw [h.standing, between_member hm]
      rfl
    · rintro s'' result ⟨rfl, rfl⟩
      refine .bind (.note _ _ _ (.pure (.inl ⟨rfl, h.injected, ?_⟩)))
      change (s'.standing .coordinator).close = _
      rw [h.standing]
      rfl
  · exact .inr ⟨rfl, h⟩
  · exact absurd he (Rank.farewell_fits who error)

theorem member_close (hs : s.standing .coordinator = ⟨6, .engaged⟩)
    (struck : who = told.agreed.failing → s.injected = [told.agreed.fault]) :
    (faulty size greeting told).Goes who (MemberEnds who (greeting who) told.agreed) s
      (Schedule.close ⟨who, size, greeting who⟩
        ⟨who, told.agreed, [], [], .completed⟩) := by
  refine .bind (.attempt ((member_barrier hm hs rfl rfl).mono ?_))
  rintro s' result (⟨rfl, h⟩ | ⟨rfl, h⟩)
  · refine (member_part hm h.standing).mono ?_
    rintro s'' result (⟨rfl, injected, hshut⟩ | ⟨rfl, h'⟩)
    · refine .completed hshut fun hw => ?_
      rw [injected, h.injected]
      exact struck hw
    · refine .bereft h'.status h'.le_last fun _ => .inr ?_
      exact Nat.le_antisymm h'.le_last h'.first_le
  · change Goes _ _ _ _ (if GroupError.coordinatorLost = .coordinatorLost ∧
      told.agreed.failing.isCoordinator = true then _ else _)
    by_cases chosen : told.agreed.failing = .coordinator
    · rw [if_pos ⟨rfl, Rank.isCoordinator_iff.mpr chosen⟩]
      exact .bind (.note _ _ _ (.pure (.orphaned chosen h.status h.first_le h.le_last)))
    · rw [if_neg fun h' => chosen (Rank.isCoordinator_iff.mp h'.2)]
      exact .throw (.bereft h.status (Nat.le_succ_of_le h.le_last) fun h' => absurd h' chosen)

theorem member_goes :
    (faulty size greeting told).Goes who (MemberEnds who (greeting who) told.agreed) .start
      (Schedule.faulty ⟨who, size, greeting who⟩ choice) := by
  have hc := Rank.isCoordinator_member hm
  have hopening : Schedule.faulty ⟨who, size, greeting who⟩ choice = (do
      Schedule.barrier
      Schedule.send .coordinator (greeting who)
      Schedule.barrier
      let parameters ← Schedule.broadcastValue none
      Schedule.note .debug who s!"Received run parameters: {parameters.inspect}"
      Schedule.sleep parameters.sleepSeconds
      let outcome ← Schedule.strike who parameters
      if outcome = .terminated then return ⟨who, parameters, [], [], .terminated⟩
      else
        Schedule.sleep parameters.sleepSeconds
        Schedule.close ⟨who, size, greeting who⟩ ⟨who, parameters, [], [], .completed⟩) := by
    simp [Schedule.faulty, Schedule.exchangeGreetings, Schedule.agreeOnRun, hc]
  rw [hopening]
  refine member_opens hm ⟨_, List.append_assoc ..⟩ told.decode_encode (fun s' reached => ?_)
    (fun s' h => ?_) fun s' error large reached => .oversized large reached.standing
  · refine .bind (.note _ _ _ (.bind (.sleep _ (.bind (strike_goes reached.injected ?_ ?_)))))
    · intro chosen outcome
      cases outcome with
      | terminated => exact .terminated chosen rfl reached.standing
      | survived => exact .bind (.sleep _ (member_close hm reached.standing fun _ => rfl))
    · intro spared
      exact .bind (.sleep _ (member_close hm reached.standing fun h => absurd h spared))
  · have hle := h.le_last
    exact .bereft h.status (by omega) fun _ => .inl (by omega)

end Member

/-- What collecting the farewells of these members comes to: every one of them but that of the
chosen one, or somebody else who is missing. -/
inductive Farewells (failing : Rank) (s s' : Situation) (ranks : List Rank) :
    Except GroupError (List String) → Prop
  | all (injected : s'.injected = s.injected)
      (others : ∀ r, r ∉ ranks → s'.standing r = s.standing r)
      (these : ∀ r ∈ ranks, s'.standing r = ⟨9, .engaged⟩ ∨
        (r = failing ∧ (s'.standing r).status = .lost ∧ (s'.standing r).turn < 9)) :
      Farewells failing s s' ranks
        (.ok ((ranks.filter fun r => (s'.standing r).turn = 9).map Rank.farewell))
  | missing {r : Rank} (mem : r ∈ ranks) (unchosen : r ≠ failing)
      (lost : (s'.standing r).status = .lost) (turn : (s'.standing r).turn ≤ 8)
      (others : ∀ r, r ∉ ranks → s'.standing r = s.standing r)
      (late : ∀ r ∈ ranks, (s'.standing r).status = .lost ∨ 8 ≤ (s'.standing r).turn) :
      Farewells failing s s' ranks (.error (.unexpectedDeparture r))

theorem Farewells.heard {failing r : Rank} {middle s' : Situation} {ranks : List Rank}
    {result : Except GroupError (List String)} (fresh : r ∉ ranks)
    (first : Passes s middle 8 [r]) (here : middle.standing r = ⟨9, .engaged⟩)
    (rest : Farewells failing middle s' ranks result) :
    Farewells failing s s' (r :: ranks) (result.map (r.farewell :: ·)) := by
  cases rest with
  | all injected others these =>
    have same : s'.standing r = ⟨9, .engaged⟩ := (others r fresh).trans here
    have hlines : (Except.ok ((ranks.filter fun r => (s'.standing r).turn = 9).map
        Rank.farewell)).map (r.farewell :: ·) = (.ok (((r :: ranks).filter fun r =>
          (s'.standing r).turn = 9).map Rank.farewell) : Except GroupError (List String)) := by
      rw [List.filter_cons_of_pos (by simp [same])]
      rfl
    rw [hlines]
    refine .all (injected.trans first.injected) (fun m hm => ?_) fun m hm => ?_
    · rw [others m fun h => hm (List.mem_cons_of_mem _ h)]
      exact first.others m fun h => hm (List.mem_singleton.mp h ▸ List.mem_cons_self)
    · rcases List.mem_cons.mp hm with rfl | hm
      · exact .inl same
      · exact these m hm
  | missing mem unchosen lost turn others late =>
    refine .missing (List.mem_cons_of_mem _ mem) unchosen lost turn (fun m hm => ?_) fun m hm => ?_
    · rw [others m fun h => hm (List.mem_cons_of_mem _ h)]
      exact first.others m fun h => hm (List.mem_singleton.mp h ▸ List.mem_cons_self)
    · rcases List.mem_cons.mp hm with rfl | hm
      · exact .inr (by rw [others m fresh, here]; decide)
      · exact late m hm

theorem Farewells.skipped {failing r : Rank} {middle s' : Situation} {ranks : List Rank}
    {result : Except GroupError (List String)} (fresh : r ∉ ranks) (chosen : r = failing)
    (injected : middle.injected = s.injected)
    (others : ∀ m, m ≠ r → middle.standing m = s.standing m)
    (lost : (middle.standing r).status = .lost) (turn : (middle.standing r).turn < 9)
    (rest : Farewells failing middle s' ranks result) :
    Farewells failing s s' (r :: ranks) result := by
  cases rest with
  | all injected' others' these =>
    have same := others' r fresh
    have hlines : (r :: ranks).filter (fun r => (s'.standing r).turn = 9) =
        ranks.filter fun r => (s'.standing r).turn = 9 := by
      rw [List.filter_cons_of_neg]
      simp only [decide_eq_true_eq]
      rw [same]
      omega
    rw [← hlines]
    refine .all (injected'.trans injected) (fun m hm => ?_) fun m hm => ?_
    · rw [others' m fun h => hm (List.mem_cons_of_mem _ h)]
      exact others m fun h => hm (h ▸ List.mem_cons_self)
    · rcases List.mem_cons.mp hm with rfl | hm
      · rw [same]
        exact .inr ⟨chosen, lost, turn⟩
      · exact these m hm
  | missing mem unchosen lost' turn' others' late =>
    refine .missing (List.mem_cons_of_mem _ mem) unchosen lost' turn' (fun m hm => ?_)
      fun m hm => ?_
    · rw [others' m fun h => hm (List.mem_cons_of_mem _ h)]
      exact others m fun h => hm (h ▸ List.mem_cons_self)
    · rcases List.mem_cons.mp hm with rfl | hm
      · exact .inl (by rw [others' m fresh, lost])
      · exact late m hm

def Depart (size : UInt32) (failing : Rank) (departed : List Rank) (s : Situation)
    (ranks : List Rank) : Prop :=
  ∀ m ∈ ranks, m ∈ Rank.members size ∧ ((m ∉ departed ∧ s.standing m = ⟨8, .engaged⟩) ∨
    (m ∈ departed ∧ m = failing ∧ (s.standing m).status = .lost ∧ (s.standing m).turn < 8))

theorem Depart.late {failing : Rank} {departed : List Rank} {ranks : List Rank}
    (h : Depart size failing departed s ranks) :
    ∀ m ∈ ranks, (s.standing m).status = .lost ∨ 8 ≤ (s.standing m).turn := by
  intro m hm
  obtain ⟨-, ⟨-, hs⟩ | ⟨-, -, lost, -⟩⟩ := h m hm
  · exact .inr (Nat.le_of_eq (congrArg Standing.turn hs).symm)
  · exact .inl lost

theorem farewellsFrom_goes {departed : List Rank} {first count : Nat}
    (nodup : (Rank.interval first count).Nodup)
    (depart : Depart size told.agreed.failing departed s (Rank.interval first count)) :
    (faulty size greeting told).Goes .coordinator (fun s' result =>
        Farewells told.agreed.failing s s' (Rank.interval first count) result) s
      (Schedule.farewellsFrom .coordinator told.agreed departed first count) := by
  induction count generalizing first s with
  | zero => exact .all rfl (fun _ _ => rfl) nofun
  | succ count ih =>
    obtain ⟨fresh, nodup⟩ := List.nodup_cons.mp nodup
    obtain ⟨hm, at_⟩ := depart _ List.mem_cons_self
    -- What happens on this connection leaves the others where they were.
    have kept : ∀ {middle : Situation},
        (∀ m, m ≠ ⟨UInt32.ofNat first⟩ → middle.standing m = s.standing m) →
        Depart size told.agreed.failing departed middle (Rank.interval (first + 1) count) := by
      intro middle same m hmem
      rw [same m fun he => fresh (he ▸ hmem)]
      exact depart m (List.mem_cons_of_mem _ hmem)
    rw [Schedule.farewellsFrom]
    rcases at_ with ⟨hn, hs⟩ | ⟨hd, chosen, lost, turn⟩
    · have same : ∀ f, ∀ m, m ≠ (⟨UInt32.ofNat first⟩ : Rank) →
          (s.change ⟨UInt32.ofNat first⟩ f).standing m = s.standing m :=
        fun f m hne => s.change_other f hne
      rw [if_neg (by simpa using hn)]
      refine .bind (.attempt ((hub_text hm hs rfl).mono ?_))
      rintro middle _ (⟨rfl, rfl⟩ | ⟨rfl, rfl⟩)
      · have here : (s.advance ⟨UInt32.ofNat first⟩).standing ⟨UInt32.ofNat first⟩ =
            ⟨9, .engaged⟩ := by
          rw [Situation.advance, Situation.change_same, hs]
          rfl
        refine .bind (.print _ (.bind ((ih nodup (kept (same _))).mono fun s' result rest => ?_)))
        have hcons := rest.heard fresh (passes_advance hs) here
        cases result with
        | ok heard => exact hcons
        | error error => exact hcons
      · have here : (s.lose ⟨UInt32.ofNat first⟩).standing ⟨UInt32.ofNat first⟩ = ⟨8, .lost⟩ := by
          rw [Situation.lose, Situation.change_same, hs]
          rfl
        change Goes _ _ _ _ (if (⟨UInt32.ofNat first⟩ : Rank) = told.agreed.failing then _ else _)
        by_cases chosen : (⟨UInt32.ofNat first⟩ : Rank) = told.agreed.failing
        · rw [if_pos chosen]
          have lost : ((s.lose ⟨UInt32.ofNat first⟩).standing ⟨UInt32.ofNat first⟩).status = .lost ∧
              ((s.lose ⟨UInt32.ofNat first⟩).standing ⟨UInt32.ofNat first⟩).turn < 9 := by
            rw [here]
            exact ⟨rfl, by decide⟩
          refine .bind (.note _ _ _ ((ih nodup (kept (same _))).mono fun s' result rest => ?_))
          exact .skipped fresh chosen (Situation.change_injected s _ _) (same _) lost.1 lost.2 rest
        · rw [if_neg chosen]
          refine .throw (.missing List.mem_cons_self chosen (by rw [here])
            (Nat.le_of_eq (by rw [here])) (fun m hmem => ?_) fun m hmem => ?_)
          · exact same _ m fun he => hmem (he ▸ List.mem_cons_self)
          · by_cases hne : m = ⟨UInt32.ofNat first⟩
            · rw [hne, here]
              exact .inl rfl
            · have hm' : (s.lose ⟨UInt32.ofNat first⟩).standing m = s.standing m := same _ m hne
              rw [hm']
              exact depart.late m hmem
    · rw [if_pos (by simpa using hd)]
      refine .bind (.note _ _ _ ((ih nodup (kept fun _ _ => rfl)).mono fun s' result rest => ?_))
      exact rest.skipped fresh chosen rfl (fun _ _ => rfl) lost (Nat.lt_succ_of_lt turn)

/-- How the run of the coordinator can end, and where it is then. -/
inductive CoordinatorEnds (size : UInt32) (greeting : Rank → String) (agreed : RunParameters)
    (choice : Except ComponentError RunParameters) (s : Situation) :
    Except GroupError RunReport → Prop
  | completed (present : ∀ m ∈ Rank.members size, s.standing m = ⟨9, .shut⟩ ∨
        (m = agreed.failing ∧ (s.standing m).status = .lost ∧ (s.standing m).turn < 9))
      (struck : .coordinator = agreed.failing → s.injected = [agreed.fault]) :
      CoordinatorEnds size greeting agreed choice s (.ok ⟨.coordinator, agreed,
        (Rank.everybody size).map greeting,
        (.coordinator :: (Rank.members size).filter fun r => (s.standing r).turn = 9).map
          Rank.farewell, .completed⟩)
  | terminated (chosen : .coordinator = agreed.failing) (struck : s.injected = [agreed.fault])
      (members : ∀ m ∈ Rank.members size, s.standing m = ⟨6, .engaged⟩ ∨
        ((s.standing m).status = .lost ∧ (s.standing m).turn < 6)) :
      CoordinatorEnds size greeting agreed choice s
        (.ok ⟨.coordinator, agreed, (Rank.everybody size).map greeting, [], .terminated⟩)
  | departed {r : Rank} (mem : r ∈ Rank.members size) (lost : (s.standing r).status = .lost)
      (turn : (s.standing r).turn ≤ 2)
      (early : ∀ m ∈ Rank.members size, (s.standing m).turn ≤ 3) :
      CoordinatorEnds size greeting agreed choice s (.error (.peerDeparted r))
  | unexpected {r : Rank} (mem : r ∈ Rank.members size) (unchosen : r ≠ agreed.failing)
      (lost : (s.standing r).status = .lost) (turn : (s.standing r).turn ≤ 8)
      (late : ∀ m ∈ Rank.members size, (s.standing m).status = .lost ∨ 8 ≤ (s.standing m).turn) :
      CoordinatorEnds size greeting agreed choice s (.error (.unexpectedDeparture r))
  | refused {error : ComponentError} (refuses : choice = .error error)
      (early : ∀ m ∈ Rank.members size, (s.standing m).turn ≤ 5) :
      CoordinatorEnds size greeting agreed choice s (.error (.component error))

theorem collectFarewells_goes {injected : List FaultCode}
    (h : AllAt (faulty size greeting told) s 8 injected) :
    (faulty size greeting told).Goes .coordinator (fun s' result => ∃ others,
        Farewells told.agreed.failing s s' (Rank.members size) others ∧
        result = others.map (Rank.coordinator.farewell :: ·)) s
      (Schedule.collectFarewells ⟨.coordinator, size, greeting .coordinator⟩ told.agreed) := by
  have hlost : ∀ m ∈ Rank.members size, s.engaged m = false →
      (s.standing m).status = .lost ∧ (s.standing m).turn < 8 := by
    intro m hm hn
    refine (h.members m hm).resolve_left fun hs => ?_
    rw [Situation.engaged, hs] at hn
    cases hn
  unfold Schedule.collectFarewells
  refine .bind (.departed fun c fits => ?_)
  dsimp only [Goes.After]
  have habsent : ∀ m, m ∈ c.topology.departedPeers ↔
      m ∈ Rank.members size ∧ s.engaged m = false := by
    intro m
    rw [fits.departedPeers, List.mem_filter, Bool.not_eq_true']
    rfl
  cases hfind : c.topology.departedPeers.find? (· ≠ told.agreed.failing) with
  | some r =>
    obtain ⟨hm, hn⟩ := (habsent r).mp (List.mem_of_find?_eq_some hfind)
    have unchosen : r ≠ told.agreed.failing := by simpa using List.find?_some hfind
    obtain ⟨lost, turn⟩ := hlost r hm hn
    refine .throw ⟨_, .missing hm unchosen lost (Nat.le_of_lt turn) (fun _ _ => rfl) fun m hm => ?_,
      rfl⟩
    rcases h.members m hm with hs | hs
    · exact .inr (Nat.le_of_eq (congrArg Standing.turn hs).symm)
    · exact .inl hs.1
  | none =>
    have depart : Depart size told.agreed.failing c.topology.departedPeers s
        (Rank.members size) := by
      intro m hm
      refine ⟨hm, ?_⟩
      rcases h.members m hm with hs | hs
      · refine .inl ⟨fun hd => ?_, hs⟩
        have hn := ((habsent m).mp hd).2
        rw [Situation.engaged, hs] at hn
        cases hn
      · have hd := (habsent m).mpr ⟨hm, by rw [Situation.engaged, hs.1]; rfl⟩
        have chosen : m = told.agreed.failing := by simpa using List.find?_eq_none.mp hfind m hd
        exact .inr ⟨hd, chosen, hs⟩
    refine .bind (.print _ (.bind ((farewellsFrom_goes (Rank.nodup_members size) depart).mono ?_)))
    intro s' result rest
    cases result with
    | ok others => exact ⟨_, rest, rfl⟩
    | error error => exact ⟨_, rest, rfl⟩

theorem hub_part {injected : List FaultCode} {report : RunReport}
    (h : AllAt (faulty size greeting told) s 8 injected)
    (struck : .coordinator = told.agreed.failing → injected = [told.agreed.fault])
    (hreport : report = ⟨.coordinator, told.agreed, (Rank.everybody size).map greeting, [],
      .completed⟩) :
    (faulty size greeting told).Goes .coordinator
      (CoordinatorEnds size greeting told.agreed choice) s
      (Schedule.part ⟨.coordinator, size, greeting .coordinator⟩ report) := by
  subst hreport
  refine .bind ((collectFarewells_goes h).mono ?_)
  rintro s' _ ⟨others, heard, rfl⟩
  cases heard with
  | missing mem unchosen lost turn _ late => exact .unexpected mem unchosen lost turn late
  | all same others these =>
    refine .bind (.finalize fun c fits => (finalize_keeps fun peer hp engaged => ?_).mono ?_)
    · rcases these peer hp with hs | ⟨-, lost, -⟩
      · rw [hs]
        rfl
      · rw [lost] at engaged
        cases engaged
    · rintro s'' _ ⟨rfl, rfl⟩
      refine .bind (.note _ _ _ (.pure (.completed (fun m hm => ?_) fun chosen => ?_)))
      · rcases these m hm with hs | ⟨chosen, lost, turn⟩
        · left
          change (s'.standing m).close = _
          rw [hs]
          rfl
        · exact .inr ⟨chosen, Standing.close_lost lost, turn⟩
      · exact (same.trans h.injected).trans (struck chosen)

theorem hub_close {injected : List FaultCode} {report : RunReport}
    (h : AllAt (faulty size greeting told) s 6 injected)
    (struck : .coordinator = told.agreed.failing → injected = [told.agreed.fault])
    (hreport : report = ⟨.coordinator, told.agreed, (Rank.everybody size).map greeting, [],
      .completed⟩) :
    (faulty size greeting told).Goes .coordinator
      (CoordinatorEnds size greeting told.agreed choice) s
      (Schedule.close ⟨.coordinator, size, greeting .coordinator⟩ report) := by
  refine .bind (.attempt ((hub_barrier h (fun _ _ => rfl) fun _ _ => rfl).mono ?_))
  rintro s' _ ⟨rfl, h'⟩
  exact hub_part h' struck hreport

theorem coordinator_goes (htold : ∀ p, choice = .ok p → p = told) :
    (faulty size greeting told).Goes .coordinator
      (CoordinatorEnds size greeting told.agreed choice) .start
      (Schedule.faulty ⟨.coordinator, size, greeting .coordinator⟩ choice) := by
  refine hub_opens (fun m _ => ⟨_, List.append_assoc ..⟩) (fun s h => ?_)
    fun s before r after split heard lost turn early => ?_
  · refine .bind ((hub_barrier h (fun _ _ => rfl) fun _ _ => rfl).mono ?_)
    rintro s3 _ ⟨rfl, h3⟩
    cases choice with
    | error error => exact .bind (.bind (.demand (.refused rfl h3.early)))
    | ok chosen =>
      obtain rfl := htold chosen rfl
      refine .bind (.bind (.demand (.bind (.print _ ((hub_value h3 (fun _ _ => rfl)
        chosen.told_fits chosen.decode_encode).mono ?_)))))
      rintro s4 _ ⟨rfl, h4⟩
      refine .bind (.note _ _ _ (.bind (.sleep _ (.bind (strike_goes h4.injected ?_ ?_)))))
      · intro struck outcome
        have h5 : AllAt (faulty size greeting chosen)
            { s4 with injected := [chosen.agreed.fault] } 6 [chosen.agreed.fault] :=
          ⟨rfl, h4.members⟩
        cases outcome with
        | terminated => exact .terminated struck rfl h4.members
        | survived => exact .bind (.sleep _ (hub_close h5 (fun _ => rfl) rfl))
      · intro spared
        exact .bind (.sleep _ (hub_close h4 (fun h => absurd h spared) rfl))
  · have mem : r ∈ Rank.members size := by
      rw [show Rank.members size = before ++ r :: after from split]
      exact List.mem_append_right _ List.mem_cons_self
    exact .departed mem lost turn early

end Plan
end FaultDrill
