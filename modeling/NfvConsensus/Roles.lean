import NfvConsensus.ConfTemplate

/-! The processes each container starts. Every VNF finds its own acceptor in the lines
appended to `paxos.conf`; a container without a domain raises before it starts anything. -/
namespace NfvConsensus
open Python Foundation.Text Foundation.Blocks Foundation.Search
namespace Network

section Start
variable (net : Network)

theorem acceptor_unpack (i : Nat) : unpack (((split ' ' (join [' '] (net.acceptorFields i))).drop 1).take 2) =
    .ok (str i,address (net.vnfHostBase + i)) := by
  rw [split_acceptor]
  rfl

def listedAt (ip : Str) (k : Nat) : Bool := decide (address (net.vnfHostBase + k) = ip)

theorem searchAcceptor_search (ip : Str) (keys : List Nat) (before : Option Str) :
    Manager.searchAcceptor ip (keys.map fun k => join [' '] (net.acceptorFields k)) before =
      .ok (search (net.listedAt ip) str keys before) := by
  induction keys generalizing before with
  | nil => rfl
  | cons k keys ih =>
    rw [List.map_cons,Manager.searchAcceptor,acceptor_unpack,search]
    by_cases mine : address (net.vnfHostBase + k) = ip
    · simp [listedAt,mine,bind,Except.bind]
    · simp [listedAt,mine,bind,Except.bind,ih]

theorem executeRoles_conf (data : Str) (template : Template data) (ip : Str) :
    Manager.executeRoles (net.confFile data) ip =
      let roles := if ip = address net.vnfHostBase then [Manager.Role.proposer] else []
      match search (net.listedAt ip) str (List.range net.numVnfs) none with
      | none => ⟨roles,some .nameError⟩
      | some id => ⟨roles ++ [.acceptor id,.learner,.client],none⟩ := by
  rw [Manager.executeRoles,confLines_conf net data template]
  simp only [confRecords,split_proposer,searchAcceptor_search]
  rfl

def vnfRoles (i : Nat) : List Manager.Role :=
  (if i = 0 then [.proposer] else []) ++ [.acceptor (str i),.learner,.client]

theorem executeRoles_vnf (data : Str) (template : Template data) (i : Nat) (part : i < net.numVnfs) :
    Manager.executeRoles (net.confFile data) (address (net.vnfHostBase + i)) =
      ⟨vnfRoles i,none⟩ := by
  have listed : ∃ k ∈ List.range net.numVnfs, net.listedAt (address (net.vnfHostBase + i)) k = true :=
    ⟨i,List.mem_range.mpr part,decide_eq_true rfl⟩
  obtain ⟨k,_,here,found⟩ := search_found _ str _ none listed
  obtain rfl : k = i := Nat.add_left_cancel ((address_inj _ _).mp (of_decide_eq_true here))
  have first : net.vnfHostBase + k = net.vnfHostBase ↔ k = 0 := by omega
  rw [net.executeRoles_conf data template,found]
  simp only [address_inj,first,vnfRoles]

theorem init_vnf (data : Str) (template : Template data) (order : List Nat) (i : Nat) (listed : i ∈ order)
    (part : i < net.numVnfs) (served : i < net.numCtls) :
    Manager.init (printDomain (order.map net.entry)) (net.confFile data)
      (address (net.vnfHostBase + i)) = ⟨vnfRoles i,none⟩ := by
  rw [Manager.init,net.getDomain_vnf order i listed part served]
  exact net.executeRoles_vnf data template i part

theorem init_empty (conf : Str) (order : List Nat) (i : Nat) (part : i < net.numVnfs) (unserved : net.numCtls ≤ i) :
    Manager.init (printDomain (order.map net.entry)) conf (address (net.vnfHostBase + i)) = ⟨[],some .valueError⟩ := by
  rw [Manager.init,net.getDomain_empty order i part unserved]

theorem init_controller (conf : Str) (order : List Nat) (j : Nat) (ctl : j < net.numCtls) :
    Manager.init (printDomain (order.map net.entry)) conf (address (ctlHostBase + j)) = ⟨[],some .valueError⟩ := by
  rw [Manager.init,net.getDomain_controller order j ctl]

/-- The file has a line for an acceptor with this id at this address. -/
def Lists (conf id ip : Str) : Prop :=
  ∃ line ∈ readlines conf, ∃ port, split ' ' (chop line) = ["acceptor".toList,id,ip,port]

variable {net}

theorem lists_vnf (data : Str) (template : Template data) (i : Nat) (part : i < net.numVnfs) :
    Lists (net.confFile data) (str i) (address (net.vnfHostBase + i)) := by
  rw [Lists,readlines_conf net data template]
  refine ⟨join [' '] (net.acceptorFields i) ++ ['\n'],List.mem_append_right _ (List.mem_map.mpr ⟨_,?_,rfl⟩),str (8800 + i),?_⟩
  · exact List.mem_cons_of_mem _ (List.mem_map.mpr ⟨i,List.mem_range.mpr part,rfl⟩)
  · rw [chop,List.dropLast_concat,split_acceptor,acceptorFields]

theorem lists_index (data : Str) (template : Template data) (id : Str) (host : Nat)
    (lists : Lists (net.confFile data) id (address host)) :
    ∃ i < net.numVnfs, id = str i ∧ host = net.vnfHostBase + i := by
  obtain ⟨line,member,port,fields⟩ := lists
  rw [readlines_conf net data template,List.mem_append] at member
  rcases member with foreign | own
  · have marked : "172.17.0".toList <:+: line := by
      have whole : join [' '] (split ' ' (chop line)) = chop line := List.intercalate_splitOn ' '
      rw [fields] at whole
      have inside : address host <:+: chop line := whole ▸ field_inside _ _ _ (by simp)
      exact ((address_marked host).trans inside).trans (List.dropLast_prefix line).isInfix
    have unmarked := template.foreign line foreign
    simp only [contains,marked,decide_true,Bool.true_eq_false] at unmarked
  · obtain ⟨record,present,rfl⟩ := List.mem_map.mp own
    rw [chop,List.dropLast_concat] at fields
    rcases List.mem_cons.mp present with rfl | later
    · rw [split_proposer,proposerFields] at fields
      exact absurd (String.toList_inj.mp (List.cons.inj fields).1) (by decide)
    · obtain ⟨i,inside,rfl⟩ := List.mem_map.mp later
      rw [split_acceptor,acceptorFields] at fields
      simp only [List.cons.injEq,true_and,address_inj] at fields
      exact ⟨i,List.mem_range.mp inside,fields.1.symm,fields.2.1.symm⟩

end Start

section Containers
variable (net : Network)

/-- Both start scripts run the manager. -/
def containers : List Str := net.controllers ++ net.vnfs

/-- No acceptor id and no proposer is started twice, and only where `paxos.conf` says. -/
structure RolesUnique (domain : Domain) (file conf : Str) : Prop where
  distinct : ∀ ip ∈ net.containers, ∀ other ∈ net.containers, ∀ id,
    .acceptor id ∈ (Manager.init file conf ip).roles → .acceptor id ∈ (Manager.init file conf other).roles → ip = other
  listed : ∀ ip ∈ net.containers, ∀ id, .acceptor id ∈ (Manager.init file conf ip).roles →
    Lists conf id ip ∧ ∀ other ∈ net.containers, Lists conf id other → other = ip
  proposer : ∀ ip ∈ net.containers, .proposer ∈ (Manager.init file conf ip).roles → net.vnfs.head? = some ip
  controllers : ∀ ip ∈ net.controllers, (Manager.init file conf ip).roles = []
  served : ∀ vnf ctls, domain.lookup vnf = some ctls → ctls ≠ [] →
    (∃ id, .acceptor id ∈ (Manager.init file conf vnf).roles ∧ Lists conf id vnf) ∧
      (net.vnfs.head? = some vnf → .proposer ∈ (Manager.init file conf vnf).roles)

def acceptorIds (roles : List Manager.Role) : List Str :=
  roles.filterMap fun role => match role with
    | .acceptor id => some id
    | _ => none

def startedAcceptors (file conf : Str) : List Str :=
  net.containers.flatMap fun ip => acceptorIds (Manager.init file conf ip).roles

/-- The lines for acceptors among those that name an address of the network. -/
def acceptorLines (conf : Str) : List Str :=
  (Manager.confLines conf).filter fun line => (split ' ' line).head? = some "acceptor".toList

structure AcceptorsUp (file conf : Str) : Prop where
  started : ∀ id, ∀ vnf ∈ net.vnfs, Lists conf id vnf →
    (∃ hosts, Manager.getDomain file vnf = .ok hosts) ∧ .acceptor id ∈ (Manager.init file conf vnf).roles
  counted : (net.startedAcceptors file conf).length = (acceptorLines conf).length

variable {net}

theorem vnfs_head (i : Nat) (part : i < net.numVnfs) :
    net.vnfs.head? = some (address (net.vnfHostBase + i)) ↔ i = 0 := by
  obtain ⟨m,count⟩ := Nat.exists_eq_add_of_lt (Nat.lt_of_le_of_lt (Nat.zero_le i) part)
  rw [Nat.zero_add] at count
  rw [vnfs,count,List.range_succ_eq_map]
  simp

theorem acceptor_role (i : Nat) (id : Str) : .acceptor id ∈ vnfRoles i ↔ id = str i := by
  unfold vnfRoles
  split <;> simp

theorem proposer_role (i : Nat) : .proposer ∈ vnfRoles i ↔ i = 0 := by
  unfold vnfRoles
  split <;> simp_all

theorem container_roles (data : Str) (template : Template data) (order : List Nat)
    (permuted : order.Perm (List.range net.numVnfs)) (ip : Str) (member : ip ∈ net.containers) :
    (Manager.init (printDomain (order.map net.entry)) (net.confFile data) ip).roles = [] ∨
      ∃ i < net.numVnfs, ip = address (net.vnfHostBase + i) ∧
        (Manager.init (printDomain (order.map net.entry)) (net.confFile data) ip).roles =
          vnfRoles i := by
  rcases List.mem_append.mp member with ctl | vnf
  · obtain ⟨j,inside,rfl⟩ := (mem_controllers ip).mp ctl
    exact .inl (by rw [net.init_controller _ order j inside])
  · obtain ⟨i,part,rfl⟩ := (mem_vnfs ip).mp vnf
    rcases Nat.lt_or_ge i net.numCtls with served | unserved
    · have listed : i ∈ order := permuted.mem_iff.mpr (List.mem_range.mpr part)
      exact .inr ⟨i,part,rfl,by rw [net.init_vnf data template order i listed part served]⟩
    · exact .inl (by rw [net.init_empty _ order i part unserved])

theorem acceptor_container (data : Str) (template : Template data) (order : List Nat)
    (permuted : order.Perm (List.range net.numVnfs)) (ip : Str) (member : ip ∈ net.containers) (id : Str)
    (starts : .acceptor id ∈ (Manager.init (printDomain (order.map net.entry))
      (net.confFile data) ip).roles) :
    ∃ i < net.numVnfs, ip = address (net.vnfHostBase + i) ∧ id = str i := by
  rcases container_roles data template order permuted ip member with none | ⟨i,part,rfl,roles⟩
  · simp [none] at starts
  · rw [roles,acceptor_role] at starts
    exact ⟨i,part,rfl,starts⟩

theorem roles_unique_order (data : Str) (template : Template data) (domain : Domain)
    (entries : domain.entries = ((List.range net.numVnfs).map net.entry).reverse) (order : List Nat)
    (permuted : order.Perm (List.range net.numVnfs)) :
    net.RolesUnique domain (printDomain (order.map net.entry)) (net.confFile data) where
  distinct ip member other other_member id starts other_starts := by
    obtain ⟨i,_,rfl,first⟩ := acceptor_container data template order permuted ip member id starts
    obtain ⟨k,_,rfl,second⟩ := acceptor_container data template order permuted other other_member id other_starts
    rw [(str_inj i k).mp (first.symm.trans second)]
  listed ip member id starts := by
    obtain ⟨i,part,rfl,rfl⟩ := acceptor_container data template order permuted ip member id starts
    refine ⟨lists_vnf data template i part,fun other other_member lists => ?_⟩
    have numbered : ∃ host, other = address host := by
      rcases List.mem_append.mp other_member with ctl | vnf
      · obtain ⟨j,_,rfl⟩ := (mem_controllers other).mp ctl
        exact ⟨_,rfl⟩
      · obtain ⟨k,_,rfl⟩ := (mem_vnfs other).mp vnf
        exact ⟨_,rfl⟩
    obtain ⟨host,rfl⟩ := numbered
    obtain ⟨k,_,same,rfl⟩ := lists_index data template (str i) host lists
    rw [(str_inj i k).mp same]
  proposer ip member starts := by
    rcases container_roles data template order permuted ip member with none | ⟨i,part,rfl,roles⟩
    · simp [none] at starts
    · rw [roles,proposer_role] at starts
      exact (vnfs_head i part).mpr starts
  controllers ip member := by
    obtain ⟨j,inside,rfl⟩ := (mem_controllers ip).mp member
    rw [net.init_controller _ order j inside]
  served vnf ctls found present := by
    obtain ⟨i,part,rfl,rfl⟩ := (lookup_entry domain entries _ _).mp found
    have listed : i ∈ order := permuted.mem_iff.mpr (List.mem_range.mpr part)
    rw [net.init_vnf data template order i listed part (served_part i part present)]
    refine ⟨⟨str i,(acceptor_role i _).mpr rfl,lists_vnf data template i part⟩,fun head => ?_⟩
    exact (proposer_role i).mpr ((vnfs_head i part).mp head)

/-- Whatever the numbers of containers, the template and the order of the domain file, no
Paxos role is started twice. -/
theorem roles_unique (net : Network) (positive : 1 ≤ net.numVnfs) (data : Str) (template : Template data) :
    ∃ domain conf, net.buildDomain = .ok domain ∧ net.createPaxosConf data = .ok conf ∧
      ∀ items : List (Σ _ : Str, List Str), items.Perm domain.entries →
        net.RolesUnique domain (printDomain items) conf := by
  obtain ⟨domain,built,entries⟩ := net.buildDomain_entries positive
  refine ⟨domain,_,built,net.createPaxosConf_records data positive,?_⟩
  intro items iterated
  obtain ⟨order,permuted,rfl⟩ := net.iteration_order domain built positive items iterated
  exact roles_unique_order data template domain entries order permuted

theorem roles_unique_sample : ∃ domain conf, (Network.mk 3 2).buildDomain = .ok domain ∧
    (Network.mk 3 2).createPaxosConf paxosConfExample = .ok conf ∧
      ∀ items : List (Σ _ : Str, List Str), items.Perm domain.entries →
        (Network.mk 3 2).RolesUnique domain (printDomain items) conf :=
  roles_unique (Network.mk 3 2) (by decide) paxosConfExample paxosConfExample_template

theorem acceptorIds_vnf (i : Nat) : acceptorIds (vnfRoles i) = [str i] := by
  unfold vnfRoles
  split <;> rfl

theorem started_all (data : Str) (template : Template data) (order : List Nat)
    (permuted : order.Perm (List.range net.numVnfs)) (enough : net.numVnfs ≤ net.numCtls) :
    net.startedAcceptors (printDomain (order.map net.entry)) (net.confFile data) =
      (List.range net.numVnfs).map str := by
  have none : net.controllers.flatMap (fun ip => acceptorIds (Manager.init (printDomain (order.map net.entry))
      (net.confFile data) ip).roles) = [] := by
    rw [List.flatMap_eq_nil_iff]
    intro ip member
    obtain ⟨j,inside,rfl⟩ := (mem_controllers ip).mp member
    rw [net.init_controller _ order j inside]
    rfl
  have single : (List.range net.numVnfs).map str = (List.range net.numVnfs).flatMap fun i => [str i] :=
    (List.flatMap_pure_eq_map ..).symm
  rw [startedAcceptors,containers,List.flatMap_append,none,List.nil_append,vnfs,List.flatMap_map,single]
  apply List.flatMap_congr
  intro i member
  have part := List.mem_range.mp member
  have listed : i ∈ order := permuted.mem_iff.mpr member
  rw [net.init_vnf data template order i listed part (by omega),acceptorIds_vnf]

theorem acceptorLines_count (data : Str) (template : Template data) :
    (acceptorLines (net.confFile data)).length = net.numVnfs := by
  have proposer : ¬("proposer".toList = "acceptor".toList) := fun same => absurd (String.toList_inj.mp same) (by decide)
  have own : ((List.range net.numVnfs).map fun i => join [' '] (net.acceptorFields i)).filter
      (fun line => (split ' ' line).head? = some "acceptor".toList) =
        (List.range net.numVnfs).map fun i => join [' '] (net.acceptorFields i) := by
    rw [List.filter_eq_self]
    intro line member
    obtain ⟨i,_,rfl⟩ := List.mem_map.mp member
    rw [split_acceptor]
    exact decide_eq_true rfl
  rw [acceptorLines,confLines_conf net data template,confRecords,List.filter_cons_of_neg,own,List.length_map,
    List.length_range]
  rw [split_proposer,proposerFields,List.head?_cons,decide_eq_true_eq]
  exact fun same => proposer (Option.some.inj same)

theorem acceptors_up_order (data : Str) (template : Template data) (positive : 1 ≤ net.numVnfs) (order : List Nat)
    (permuted : order.Perm (List.range net.numVnfs)) :
    net.AcceptorsUp (printDomain (order.map net.entry)) (net.confFile data) ↔
      net.numVnfs ≤ net.numCtls := by
  constructor
  · -- otherwise the last VNF has no controller, and `min` of its empty list raises
    intro up
    by_contra few
    have last : net.numVnfs - 1 < net.numVnfs := by omega
    have vnf : address (net.vnfHostBase + (net.numVnfs - 1)) ∈ net.vnfs := (mem_vnfs _).mpr ⟨_,last,rfl⟩
    obtain ⟨⟨hosts,read⟩,_⟩ := up.started _ _ vnf (lists_vnf data template _ last)
    rw [net.getDomain_empty order _ last (by omega)] at read
    contradiction
  · intro enough
    refine ⟨fun id vnf member lists => ?_,?_⟩
    · obtain ⟨i,part,rfl⟩ := (mem_vnfs vnf).mp member
      have listed : i ∈ order := permuted.mem_iff.mpr (List.mem_range.mpr part)
      obtain ⟨k,_,rfl,same⟩ := lists_index data template id _ lists
      obtain rfl : i = k := Nat.add_left_cancel same
      rw [net.init_vnf data template order i listed part (by omega)]
      exact ⟨⟨_,net.getDomain_vnf order i listed part (by omega)⟩,(acceptor_role i _).mpr rfl⟩
    · rw [started_all data template order permuted enough,acceptorLines_count data template,List.length_map,
        List.length_range]

/-- Every acceptor of `paxos.conf` comes up exactly when no VNF is left without a controller. -/
theorem acceptors_up_iff (net : Network) (positive : 1 ≤ net.numVnfs) (data : Str) (template : Template data) :
    ∃ domain conf, net.buildDomain = .ok domain ∧ net.createPaxosConf data = .ok conf ∧
      ∀ items : List (Σ _ : Str, List Str), items.Perm domain.entries →
        (net.AcceptorsUp (printDomain items) conf ↔ net.numVnfs ≤ net.numCtls) := by
  obtain ⟨domain,built,entries⟩ := net.buildDomain_entries positive
  refine ⟨domain,_,built,net.createPaxosConf_records data positive,?_⟩
  intro items iterated
  obtain ⟨order,permuted,rfl⟩ := net.iteration_order domain built positive items iterated
  exact acceptors_up_order data template positive order permuted

theorem acceptors_up_sample : ∃ domain conf, (Network.mk 3 2).buildDomain = .ok domain ∧
    (Network.mk 3 2).createPaxosConf paxosConfExample = .ok conf ∧
      ∀ items : List (Σ _ : Str, List Str), items.Perm domain.entries →
        ((Network.mk 3 2).AcceptorsUp (printDomain items) conf ↔ 2 ≤ 3) :=
  acceptors_up_iff (Network.mk 3 2) (by decide) paxosConfExample paxosConfExample_template

theorem acceptor_missing : ∃ domain conf, (Network.mk 1 2).buildDomain = .ok domain ∧
    (Network.mk 1 2).createPaxosConf paxosConfExample = .ok conf ∧
      ¬(Network.mk 1 2).AcceptorsUp (printDomain domain.entries) conf := by
  obtain ⟨domain,built,entries⟩ := (Network.mk 1 2).buildDomain_entries (by decide)
  refine ⟨domain,_,built,(Network.mk 1 2).createPaxosConf_records paxosConfExample (by decide),?_⟩
  obtain ⟨order,permuted,same⟩ := (Network.mk 1 2).iteration_order domain built (by decide) _ (List.Perm.refl _)
  rw [same,acceptors_up_order paxosConfExample paxosConfExample_template (by decide) order permuted]
  decide

end Containers
end Network
end NfvConsensus
