import NfvConsensus.Roles

/-! The two searches for an address: the controller's for its VNF, and the manager's for its
acceptor. Both use the variable of a loop after the loop, so an address that is not there
gets what the last line says. -/
namespace NfvConsensus.Network
open Python Foundation.Text Foundation.Search

def VnfOwn (lines : List DomainLine) (ip : Str) : Prop :=
  ∀ vnf, ConsensusSwitch.getVnf (domainFile lines) ip = .ok vnf → ∃ line ∈ lines, line.vnf = vnf ∧ line.controller = ip

theorem vnf_own_iff (lines : List DomainLine) (ip : Str) :
    VnfOwn lines ip ↔ lines = [] ∨ ∃ line ∈ lines, line.controller = ip := by
  have returned (vnf : Str) : ConsensusSwitch.getVnf (domainFile lines) ip = .ok vnf ↔
      search (fun line => decide (line.controller = ip)) DomainLine.vnf lines none = some vnf := by
    rw [ConsensusSwitch.getVnf,readlines_domainFile,searchVnf_search]
    split <;> simp [*]
  have right := search_right_iff (fun line => decide (line.controller = ip)) DomainLine.vnf lines
    fun vnf => ∃ line ∈ lines, line.vnf = vnf ∧ line.controller = ip
  simp only [decide_eq_true_eq,decide_eq_false_iff_not] at right
  simp only [VnfOwn,returned]
  apply right
  · exact fun line member mine => ⟨line,member,rfl,mine⟩
  · intro absent line _ own
    obtain ⟨other,member,_,mine⟩ := own
    exact absent other member mine

section Conf
variable (net : Network)

/-- `execute_roles` starts only an acceptor that the file lists at the address, and without one
it raises or starts nothing. -/
structure RolesOwn (conf ip : Str) : Prop where
  listed : ∀ id, .acceptor id ∈ (Manager.executeRoles conf ip).roles → Lists conf id ip
  unlisted : (¬∃ id, Lists conf id ip) →
    (Manager.executeRoles conf ip).roles = [] ∨ (Manager.executeRoles conf ip).raised ≠ none

theorem acceptor_started (data : Str) (template : Template data) (ip id : Str) :
    .acceptor id ∈ (Manager.executeRoles (net.confFile data) ip).roles ↔
      search (net.listedAt ip) str (List.range net.numVnfs) none = some id := by
  rw [net.executeRoles_conf data template ip]
  cases search (net.listedAt ip) str (List.range net.numVnfs) none with
  | none => split <;> simp
  | some found => split <;> simp [eq_comm]

theorem lists_listedAt (data : Str) (template : Template data) (host : Nat) (id : Str) :
    Lists (net.confFile data) id (address host) ↔
      ∃ k ∈ List.range net.numVnfs, net.listedAt (address host) k = true ∧ str k = id := by
  constructor
  · intro lists
    obtain ⟨k,part,same,base⟩ := lists_index data template id host lists
    exact ⟨k,List.mem_range.mpr part,decide_eq_true (congrArg address base.symm),same.symm⟩
  · rintro ⟨k,member,here,rfl⟩
    have own := lists_vnf data template k (List.mem_range.mp member)
    rwa [of_decide_eq_true here] at own

theorem roles_own_iff (data : Str) (template : Template data) (positive : 0 < net.numVnfs) (host : Nat) :
    RolesOwn (net.confFile data) (address host) ↔ address host ∈ net.vnfs := by
  have lists := net.lists_listedAt data template host
  have right := search_right_iff (net.listedAt (address host)) str (List.range net.numVnfs)
    (fun id => Lists (net.confFile data) id (address host))
    (fun k member here => (lists (str k)).mpr ⟨k,member,here,rfl⟩)
    (fun absent k _ own => by
      obtain ⟨other,member,here,_⟩ := (lists (str k)).mp own
      exact absurd here (Bool.eq_false_iff.mp (absent other member)))
  have present : List.range net.numVnfs ≠ [] := by
    rw [Ne,List.range_eq_nil]
    omega
  have listed : (∃ k ∈ List.range net.numVnfs, net.listedAt (address host) k = true) ↔ address host ∈ net.vnfs := by
    simp only [mem_vnfs,List.mem_range,listedAt,decide_eq_true_eq,eq_comm (a := address host)]
  constructor
  · intro own
    have found := right.mp fun id started => own.listed id ((net.acceptor_started data template _ id).mpr started)
    exact listed.mp (found.resolve_left present)
  · intro member
    have found := listed.mpr member
    refine ⟨fun id started => ?_,fun unlisted => ?_⟩
    · exact right.mpr (.inr found) id ((net.acceptor_started data template _ id).mp started)
    · obtain ⟨k,inside,here⟩ := found
      exact absurd ⟨str k,(lists (str k)).mpr ⟨k,inside,here,rfl⟩⟩ unlisted

/-- Both searches keep to the address exactly when it is there: for `get_vnf`, as the
controller of some line, or in an empty file; for `execute_roles`, as a VNF. -/
theorem searches_own_iff (lines : List DomainLine) (ip data conf : Str) (template : Template data)
    (written : net.createPaxosConf data = .ok conf) (host : Nat) :
    (VnfOwn lines ip ↔ lines = [] ∨ ∃ line ∈ lines, line.controller = ip) ∧
      (RolesOwn conf (address host) ↔ address host ∈ net.vnfs) := by
  have positive : 0 < net.numVnfs := by
    by_contra none
    have empty : net.vnfs = [] := by
      rw [vnfs,Nat.eq_zero_of_not_pos none]
      rfl
    unfold createPaxosConf at written
    rw [empty] at written
    contradiction
  rw [net.createPaxosConf_records data positive] at written
  obtain rfl := Except.ok.inj written
  exact ⟨vnf_own_iff lines ip,net.roles_own_iff data template positive host⟩

end Conf

-- One controller, 172.17.0.2, and one VNF, 172.17.0.3.
def pairLine : DomainLine := recordLine (3,2)

def pairConf : Str := (Network.mk 1 1).confFile paxosConfExample

theorem searches_own_pair : (VnfOwn [pairLine] (address 2) ↔
      [pairLine] = [] ∨ ∃ line ∈ [pairLine], line.controller = address 2) ∧
    (RolesOwn pairConf (address 2) ↔ address 2 ∈ (Network.mk 1 1).vnfs) :=
  searches_own_iff (Network.mk 1 1) [pairLine] (address 2) paxosConfExample pairConf paxosConfExample_template
    ((Network.mk 1 1).createPaxosConf_records paxosConfExample (by decide)) 2

/-- The VNF gets itself from `get_vnf`, and the controller would start the acceptor of the VNF. -/
theorem searches_stray : ConsensusSwitch.getVnf (domainFile [pairLine]) (address 3) = .ok (address 3) ∧
    ¬VnfOwn [pairLine] (address 3) ∧ .acceptor (str 0) ∈ (Manager.executeRoles pairConf (address 2)).roles ∧
      ¬RolesOwn pairConf (address 2) := by
  refine ⟨?_,?_,?_,?_⟩
  · rw [ConsensusSwitch.getVnf,readlines_domainFile,searchVnf_search,search_missing]
    · rfl
    · intro line member
      obtain rfl := List.mem_singleton.mp member
      exact decide_eq_false fun same => absurd ((address_inj 2 3).mp same) (by decide)
  · rw [vnf_own_iff]
    rintro (empty | ⟨line,member,same⟩)
    · contradiction
    · obtain rfl := List.mem_singleton.mp member
      exact absurd ((address_inj 2 3).mp same) (by decide)
  · rw [pairConf,acceptor_started _ _ paxosConfExample_template,search_missing]
    · rfl
    · intro k member
      obtain rfl : k = 0 := by simpa using member
      exact decide_eq_false fun same => absurd ((address_inj 3 2).mp same) (by decide)
  · rw [pairConf,roles_own_iff _ _ paxosConfExample_template (by decide),mem_vnfs]
    rintro ⟨k,_,same⟩
    have host : 2 = 3 + k := (address_inj 2 _).mp same
    omega

end NfvConsensus.Network
