import FaultDrill.Network
import FaultDrill.Proofs.Link
set_option autoImplicit false

namespace FaultDrill

namespace Topology

def isSpoke : Topology → Bool
  | spoke _ => true
  | _ => false

def peers (t : Topology) : List Rank := t.links.map Link.peer

theorem links_mapLinks (t : Topology) (f : Link → Link) :
    (t.mapLinks f).links = t.links.map f := by
  cases t <;> rfl

theorem isSpoke_mapLinks (t : Topology) (f : Link → Link) :
    (t.mapLinks f).isSpoke = t.isSpoke := by
  cases t <;> rfl

theorem peers_mapLinks (t : Topology) (f : Link → Link) (hf : ∀ link, (f link).peer = link.peer) :
    (t.mapLinks f).peers = t.peers := by
  rw [peers, links_mapLinks, List.map_map]
  exact List.map_congr_left fun link _ => hf link

theorem link_mapLinks (t : Topology) (f : Link → Link) (hf : ∀ link, (f link).peer = link.peer)
    (peer : Rank) : (t.mapLinks f).link? peer = (t.link? peer).map f := by
  have hp : ((fun link => link.peer == peer) ∘ f : Link → Bool) = fun link => link.peer == peer :=
    funext fun link => by simp [hf]
  rw [link?, links_mapLinks, List.find?_map, hp]
  rfl

theorem peer_of_link {t : Topology} {peer : Rank} {link : Link} (h : t.link? peer = some link) :
    link.peer = peer := by
  simpa using List.find?_some h

theorem setLink_peer (link old : Link) :
    (if old.peer = link.peer then link else old : Link).peer = old.peer := by
  split <;> simp_all

theorem peers_setLink (t : Topology) (link : Link) : (t.setLink link).peers = t.peers :=
  peers_mapLinks t _ (setLink_peer link)

theorem isSpoke_setLink (t : Topology) (link : Link) : (t.setLink link).isSpoke = t.isSpoke :=
  isSpoke_mapLinks t _

theorem link_setLink (t : Topology) (link : Link) (peer : Rank) :
    (t.setLink link).link? peer =
      if peer = link.peer then (t.link? peer).map fun _ => link else t.link? peer := by
  rw [setLink, link_mapLinks t _ (setLink_peer link)]
  cases h : t.link? peer with
  | none => simp
  | some old =>
    have hp := peer_of_link h
    split <;> simp_all

theorem link_isSome (t : Topology) (peer : Rank) : (t.link? peer).isSome ↔ peer ∈ t.peers := by
  simp [link?, peers, List.find?_isSome]

theorem livePeers_sublist (t : Topology) : t.livePeers.Sublist t.peers :=
  List.filter_sublist.map Link.peer

theorem link_of_mem {t : Topology} (nodup : t.peers.Nodup) {link : Link} (hm : link ∈ t.links) :
    t.link? link.peer = some link := by
  unfold peers at nodup
  unfold link?
  generalize t.links = links at hm nodup
  induction links with
  | nil => cases hm
  | cons first rest ih =>
    rw [List.map_cons, List.nodup_cons] at nodup
    rw [List.find?_cons]
    rcases List.mem_cons.mp hm with rfl | hm
    · simp
    · have hne : (first.peer == link.peer) = false := by
        refine beq_false_of_ne fun he => nodup.1 ?_
        rw [he]
        exact List.mem_map_of_mem hm
      rw [hne]
      exact ih hm nodup.2

theorem filter_peers {t : Topology} (nodup : t.peers.Nodup) (test : Link → Bool) :
    (t.links.filter test).map Link.peer =
      t.peers.filter fun peer => (t.link? peer).any test := by
  rw [peers, List.filter_map]
  congr 1
  refine List.filter_congr fun link hm => ?_
  simp [link_of_mem nodup hm]

theorem mem_livePeers {t : Topology} {peer : Rank} {link : Link} (h : t.link? peer = some link)
    (live : link.live = true) : peer ∈ t.livePeers := by
  rw [← peer_of_link h]
  exact List.mem_map_of_mem (List.mem_filter.mpr ⟨List.mem_of_find?_eq_some h, live⟩)

theorem mem_departedPeers {t : Topology} {peer : Rank} {link : Link}
    (h : t.link? peer = some link) (dead : link.live = false) : peer ∈ t.departedPeers := by
  rw [← peer_of_link h]
  refine List.mem_map_of_mem (List.mem_filter.mpr ⟨List.mem_of_find?_eq_some h, ?_⟩)
  rw [dead]
  rfl

end Topology

namespace Communicator

def shape (c : Communicator) : Rank × UInt32 × List Rank × Bool :=
  (c.rank, c.size, c.topology.peers, c.topology.isSpoke)

theorem shape_setLink (c : Communicator) (link : Link) : (c.setLink link).shape = c.shape := by
  simp [shape, setLink, Topology.peers_setLink, Topology.isSpoke_setLink]

theorem shape_hangUp (c : Communicator) : c.hangUp.shape = c.shape := by
  simp [shape, hangUp, c.topology.peers_mapLinks Link.close fun _ => rfl,
    Topology.isSpoke_mapLinks]

end Communicator

namespace Network

variable {α : Type}

def communicator? (net : Network α) (who : Rank) : Option Communicator :=
  (net.site? who).map Site.communicator

def activity? (net : Network α) (who : Rank) : Option (Activity α) :=
  (net.site? who).map Site.activity

theorem rank_of_site {net : Network α} {who : Rank} {site : Site α}
    (h : net.site? who = some site) : site.communicator.rank = who := by
  simpa [Site.rank] using List.find?_some h

theorem rank_of_communicator {net : Network α} {who : Rank} {c : Communicator}
    (h : net.communicator? who = some c) : c.rank = who := by
  obtain ⟨site, hs, rfl⟩ := Option.map_eq_some_iff.mp h
  exact rank_of_site hs

theorem end_eq (net : Network α) (holder peer : Rank) :
    net.end? holder peer = (net.communicator? holder).bind fun c => c.topology.link? peer := by
  rw [end?, communicator?, Option.bind_map]
  rfl

theorem site_update (net : Network α) (who : Rank) (f : Site α → Site α)
    (hf : ∀ site, site.rank = who → (f site).rank = who) (r : Rank) :
    (net.update who f).site? r = if r = who then (net.site? who).map f else net.site? r := by
  have hp : ((fun site => site.rank == r) ∘ fun site => if site.rank = who then f site else site :
      Site α → Bool) = fun site => site.rank == r := by
    funext site
    by_cases h : site.rank = who
    · simp [h, hf site h]
    · simp [h]
  rw [site?, update, List.find?_map, hp]
  change (net.site? r).map _ = _
  cases h : net.site? r with
  | none =>
    split
    · subst r
      rw [h]
      rfl
    · rfl
  | some site =>
    have hr : site.rank = r := rank_of_site h
    by_cases hw : r = who
    · subst hw
      simp [h, hr]
    · simp [hr, hw]

theorem activity_setActivity (net : Network α) (who : Rank) (activity : Activity α) (r : Rank) :
    (net.setActivity who activity).activity? r =
      if r = who then (net.activity? who).map fun _ => activity else net.activity? r := by
  have hs := site_update net who (fun site => { site with activity }) (fun _ h => h) r
  rw [activity?, setActivity, hs]
  split
  · rw [activity?, Option.map_map, Option.map_map]
    rfl
  · rfl

theorem activity_setActivity_self {net : Network α} {who : Rank} {old : Activity α}
    (h : net.activity? who = some old) (activity : Activity α) :
    (net.setActivity who activity).activity? who = some activity := by
  rw [activity_setActivity, if_pos rfl, h]
  rfl

theorem communicator_of_activity {net : Network α} {who : Rank} {activity : Activity α}
    (h : net.activity? who = some activity) : ∃ c, net.communicator? who = some c := by
  obtain ⟨site, hs, -⟩ := Option.map_eq_some_iff.mp h
  exact ⟨site.communicator, by rw [communicator?, hs]; rfl⟩

theorem communicator_setActivity (net : Network α) (who : Rank) (activity : Activity α) :
    (net.setActivity who activity).communicator? = net.communicator? := by
  funext r
  have hs := site_update net who (fun site => { site with activity }) (fun _ h => h) r
  rw [communicator?, setActivity, hs]
  split
  · subst r
    rw [communicator?, Option.map_map]
    rfl
  · rfl

theorem end_setActivity (net : Network α) (who : Rank) (activity : Activity α) :
    (net.setActivity who activity).end? = net.end? := by
  funext a b
  rw [end_eq, end_eq, communicator_setActivity]

theorem isOpen_setActivity (net : Network α) (who : Rank) (activity : Activity α) :
    (net.setActivity who activity).isOpen = net.isOpen := by
  funext a b
  rw [isOpen, isOpen, end_setActivity]

theorem activity_updateCommunicator (net : Network α) (who : Rank)
    (f : Communicator → Communicator) (hf : ∀ c, (f c).rank = c.rank) :
    (net.update who fun site => { site with communicator := f site.communicator }).activity? =
      net.activity? := by
  funext r
  have hs := site_update net who
    (fun site => { site with communicator := f site.communicator })
    (fun site h => (hf site.communicator).trans h) r
  rw [activity?, hs]
  split
  · subst r
    rw [activity?, Option.map_map]
    rfl
  · rfl

theorem communicator_updateCommunicator (net : Network α) (who : Rank)
    (f : Communicator → Communicator) (hf : ∀ c, (f c).rank = c.rank) (r : Rank) :
    (net.update who fun site => { site with communicator := f site.communicator }).communicator? r =
      if r = who then (net.communicator? who).map f else net.communicator? r := by
  have hs := site_update net who
    (fun site => { site with communicator := f site.communicator })
    (fun site h => (hf site.communicator).trans h) r
  rw [communicator?, hs]
  split
  · rw [communicator?, Option.map_map, Option.map_map]
    rfl
  · rfl

/-- Two networks that differ in the state of their connections only. -/
structure Alike (net net' : Network α) : Prop where
  activity : net'.activity? = net.activity?
  shape : ∀ who, (net'.communicator? who).map Communicator.shape =
    (net.communicator? who).map Communicator.shape

theorem Alike.refl (net : Network α) : net.Alike net := ⟨rfl, fun _ => rfl⟩

theorem Alike.trans {net net' net'' : Network α} (h : net.Alike net') (h' : net'.Alike net'') :
    net.Alike net'' :=
  ⟨h'.activity.trans h.activity, fun who => (h'.shape who).trans (h.shape who)⟩

theorem alike_updateCommunicator (net : Network α) (who : Rank)
    (f : Communicator → Communicator) (hf : ∀ c, (f c).shape = c.shape) :
    net.Alike (net.update who fun site => { site with communicator := f site.communicator }) := by
  have hr : ∀ c, (f c).rank = c.rank := fun c => congrArg Prod.fst (hf c)
  refine ⟨activity_updateCommunicator net who f hr, fun r => ?_⟩
  rw [communicator_updateCommunicator net who f hr]
  split
  · rename_i hw
    rw [hw, Option.map_map]
    exact congrArg (fun g => Option.map g (net.communicator? who)) (funext hf)
  · rfl

def setEnd (net : Network α) (holder : Rank) (link : Link) : Network α :=
  net.update holder fun site => { site with communicator := site.communicator.setLink link }

theorem alike_setEnd (net : Network α) (holder : Rank) (link : Link) :
    net.Alike (net.setEnd holder link) :=
  alike_updateCommunicator net holder _ fun c => c.shape_setLink link

theorem end_setEnd (net : Network α) (holder : Rank) (link : Link) (a b : Rank) :
    (net.setEnd holder link).end? a b =
      if a = holder ∧ b = link.peer then (net.end? a b).map fun _ => link else net.end? a b := by
  have hc := communicator_updateCommunicator net holder (fun c => c.setLink link) (fun _ => rfl) a
  rw [end_eq, end_eq, setEnd, hc]
  by_cases ha : a = holder
  · subst a
    rw [if_pos rfl, Option.bind_map]
    cases net.communicator? holder with
    | none => simp
    | some c =>
      change (c.topology.setLink link).link? b = _
      rw [Topology.link_setLink]
      by_cases hb : b = link.peer <;> simp [hb]
  · rw [if_neg ha, if_neg fun h => ha h.1]

theorem alike_hangUp (net : Network α) (who : Rank) : net.Alike (net.hangUp who) :=
  alike_updateCommunicator net who _ Communicator.shape_hangUp

theorem end_hangUp (net : Network α) (who a b : Rank) :
    (net.hangUp who).end? a b =
      if a = who then (net.end? a b).map Link.close else net.end? a b := by
  have hc := communicator_updateCommunicator net who Communicator.hangUp (fun _ => rfl) a
  rw [end_eq, end_eq, hangUp, hc]
  by_cases ha : a = who
  · subst a
    rw [if_pos rfl, if_pos rfl, Option.bind_map]
    cases net.communicator? who with
    | none => rfl
    | some c => exact Topology.link_mapLinks c.topology Link.close (fun _ => rfl) b
  · rw [if_neg ha, if_neg ha]

theorem isOpen_hangUp (net : Network α) (who a b : Rank) :
    (net.hangUp who).isOpen a b = if a = who then false else net.isOpen a b := by
  rw [isOpen, end_hangUp]
  split
  · cases net.end? a b <;> rfl
  · rfl

theorem site_setCommunicator {net : Network α} {who : Rank} {c : Communicator}
    (h : net.communicator? who = some c) (link : Link) :
    (net.setCommunicator who (c.setLink link)).site? = (net.setEnd who link).site? := by
  funext r
  have hr := rank_of_communicator h
  obtain ⟨site, hsite, rfl⟩ := Option.map_eq_some_iff.mp h
  have hs := site_update net who
    (fun other => { other with communicator := site.communicator.setLink link })
    (fun _ _ => hr) r
  have he := site_update net who
    (fun other => { other with communicator := other.communicator.setLink link })
    (fun _ ho => ho) r
  rw [setCommunicator, setEnd, hs, he, hsite]
  split <;> rfl

theorem communicator_of_site {net net' : Network α} (h : net'.site? = net.site?) :
    net'.communicator? = net.communicator? := by
  funext r
  rw [communicator?, h]
  rfl

theorem end_of_site {net net' : Network α} (h : net'.site? = net.site?) :
    net'.end? = net.end? := by
  funext a b
  rw [end_eq, end_eq, communicator_of_site h]

theorem alike_of_site {net net' : Network α} (h : net'.site? = net.site?) : net.Alike net' := by
  refine ⟨funext fun r => ?_, fun who => ?_⟩
  · rw [activity?, h]
    rfl
  · rw [communicator_of_site h]

theorem alike_setCommunicator {net : Network α} {who : Rank} {c : Communicator}
    (h : net.communicator? who = some c) (link : Link) :
    net.Alike (net.setCommunicator who (c.setLink link)) :=
  (net.alike_setEnd who link).trans (alike_of_site (site_setCommunicator h link))

theorem end_setCommunicator {net : Network α} {who : Rank} {c : Communicator}
    (h : net.communicator? who = some c) (link : Link) (a b : Rank) :
    (net.setCommunicator who (c.setLink link)).end? a b =
      if a = who ∧ b = link.peer then (net.end? a b).map fun _ => link else net.end? a b := by
  rw [end_of_site (site_setCommunicator h link), end_setEnd]

theorem alike_carry (net : Network α) (source target : Rank) (bytes : List UInt8) :
    net.Alike (net.carry source target bytes) := by
  unfold carry
  split
  · exact .refl net
  · rename_i site hs
    split
    · exact alike_setCommunicator (by rw [communicator?, hs]; rfl) _
    · exact .refl net

theorem end_carry (net : Network α) (source target : Rank) (bytes : List UInt8) (a b : Rank) :
    (net.carry source target bytes).end? a b =
      if a = target ∧ b = source then (net.end? a b).map (Link.receive bytes)
      else net.end? a b := by
  unfold carry
  split
  · rename_i hs
    split
    · rename_i hab
      rw [end?, hab.1, hs]
      rfl
    · rfl
  · rename_i site hs
    have hc : net.communicator? target = some site.communicator := by rw [communicator?, hs]; rfl
    have hend : net.end? target source = site.link? source := by rw [end?, hs]; rfl
    split
    · rename_i link hl
      have hp : (link.receive bytes).peer = source := by
        rw [Link.receive_peer, Topology.peer_of_link hl]
      rw [end_setCommunicator hc, hp]
      split
      · rename_i hab
        rw [hab.1, hab.2, hend, hl]
        rfl
      · rfl
    · rename_i hl
      split
      · rename_i hab
        rw [hab.1, hab.2, hend, hl]
        rfl
      · rfl

end Network
end FaultDrill
