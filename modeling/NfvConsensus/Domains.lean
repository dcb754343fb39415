import NfvConsensus.DomainFile
import NfvConsensus.LearnedRule
import NfvConsensus.Foundation.Blocks
import Mathlib.Data.List.Perm.Basic
import Mathlib.Data.Set.List

/-! The domains of the VNFs: what `build_domain` assigns, what the file says after
`print_domain`, and what the managers and the controllers read back from it. The
file is the same set of pairs in whatever order the dict is iterated. -/
namespace NfvConsensus
open Python Foundation.Text Foundation.Blocks Foundation.Search

namespace Network

theorem ipBase_chars : ipBase = ['1','7','2','.','1','7','.','0','.'] := String.toList_ofList

theorem address_fields (host : Nat) :
    split '.' (address host) = [['1','7','2'],['1','7'],['0'],str host] := by
  have base : address host = ['1','7','2'] ++ '.' :: (['1','7'] ++ '.' :: (['0'] ++ '.' :: str host)) := by
    rw [address,ipBase_chars]
    rfl
  rw [base,split_first _ _ _ (by decide),split_first _ _ _ (by decide),split_first _ _ _ (by decide),
    split_absent _ _ (str_absent host '.')]

@[simp] theorem hostOf_address (host : Nat) : ConsensusSwitch.hostOf (address host) = str host := by
  rw [ConsensusSwitch.hostOf,address_fields]
  rfl

theorem int_hostOf (host : Nat) : int ((split '.' (address host)).getLastD []) = .ok (host : Int) := by
  rw [address_fields]
  exact int_str host

theorem address_injective : Function.Injective address := by
  intro host other same
  exact (str_inj host other).mp (List.append_cancel_left same)

@[simp] theorem address_inj (host other : Nat) : address host = address other ↔ host = other :=
  address_injective.eq_iff

theorem address_absent (host : Nat) (c : Char) (other : c.isDigit = false := by decide) (dot : c ≠ '.' := by decide) :
    c ∉ address host := by
  have dotted : ∀ d ∈ ipBase, (d.isDigit || d == '.') = true := literal_all _
  have base : c ∉ ipBase := check_absent dotted (by simp [other,dot])
  have digits := str_absent host c other
  simp [address,digits,base]

theorem address_url (host : Nat) :
    Manager.url host = "http://".toList ++ address host ++ ":8080/stats/flowentry/add".toList := by
  have base : "http://172.17.0.".toList = "http://".toList ++ ipBase := literal_append
  calc Manager.url host
    _ = "http://".toList ++ ipBase ++ str host ++ ":8080/stats/flowentry/add".toList :=
      congrArg (fun text => text ++ str host ++ ":8080/stats/flowentry/add".toList) base
    _ = "http://".toList ++ address host ++ ":8080/stats/flowentry/add".toList :=
      congrArg (· ++ ":8080/stats/flowentry/add".toList) (List.append_assoc _ _ _)

section Build
variable (net : Network)

/-- What the dict holds for VNF `i`. -/
def entry (i : Nat) : Σ _ : Str, List Str :=
  ⟨address (net.vnfHostBase + i),(block net.numCtls net.numVnfs i).map fun j => address (ctlHostBase + j)⟩

theorem entry_injective : Function.Injective net.entry := by
  intro i j same
  have keys := congrArg Sigma.fst same
  simpa [entry] using keys

theorem insert_fold (pairs : List (Str × List Str)) (domain : Domain) (distinct : (pairs.map Prod.fst).Nodup)
    (fresh : ∀ pair ∈ pairs, pair.1 ∉ domain) :
    (pairs.foldl (fun domain pair => domain.insert pair.1 pair.2) domain).entries =
      (pairs.map fun pair => (⟨pair.1,pair.2⟩ : Σ _ : Str, List Str)).reverse ++ domain.entries := by
  induction pairs generalizing domain with
  | nil => rfl
  | cons pair pairs ih =>
    obtain ⟨new,distinct⟩ := List.nodup_cons.mp distinct
    have absent := fresh pair (by simp)
    have later : ∀ other ∈ pairs, other.1 ∉ domain.insert pair.1 pair.2 := by
      intro other member present
      rcases (AList.mem_insert domain).mp present with same | old
      · exact new (List.mem_map.mpr ⟨other,member,same⟩)
      · exact fresh other (by simp [member]) old
    rw [List.foldl_cons,ih _ distinct later,AList.insert_of_notMem absent,List.map_cons,List.reverse_cons,
      List.append_assoc]
    rfl

theorem sub_domain (i : Nat) (part : i < net.numVnfs) :
    net.controllers.extract (i * (net.numCtls / net.numVnfs) + min i (net.numCtls % net.numVnfs))
        ((i + 1) * (net.numCtls / net.numVnfs) + min (i + 1) (net.numCtls % net.numVnfs)) =
      (block net.numCtls net.numVnfs i).map fun j => address (ctlHostBase + j) :=
  extract_map_range _ _ _ _ (start_le net.numCtls net.numVnfs (i + 1) part (by omega))

theorem buildDomain_entries (positive : 0 < net.numVnfs) :
    ∃ domain, net.buildDomain = .ok domain ∧
      domain.entries = ((List.range net.numVnfs).map net.entry).reverse := by
  have pairs : net.vnfs.zip ((List.range net.numVnfs).map fun i =>
      net.controllers.extract (i * (net.numCtls / net.numVnfs) + min i (net.numCtls % net.numVnfs))
        ((i + 1) * (net.numCtls / net.numVnfs) + min (i + 1) (net.numCtls % net.numVnfs))) =
      (List.range net.numVnfs).map fun i => ((net.entry i).1,(net.entry i).2) := by
    rw [vnfs,List.zip_map',List.map_inj_left]
    intro i member
    rw [net.sub_domain i (List.mem_range.mp member)]
    rfl
  have absent : net.numVnfs ≠ 0 := by omega
  refine ⟨_,by simp only [buildDomain,absent,if_false]; rfl,?_⟩
  rw [pairs,insert_fold]
  · simp
  · rw [List.map_map]
    apply List.Nodup.map _ List.nodup_range
    intro i j same
    simpa [entry] using same
  · intro pair _
    exact AList.notMem_empty pair.1

def assigned (order : List Nat) : List (Nat × Nat) :=
  order.flatMap fun i => (block net.numCtls net.numVnfs i).map fun j => (net.vnfHostBase + i,ctlHostBase + j)

def record (pair : Nat × Nat) : Str := join [' '] [address pair.1,address pair.2]

def recordLine (pair : Nat × Nat) : DomainLine where
  vnf := address pair.1
  controller := address pair.2
  vnf_plain := ⟨address_absent _ ' ',address_absent _ '\n'⟩
  controller_plain := ⟨address_absent _ ' ',address_absent _ '\n'⟩

theorem record_text (pair : Nat × Nat) : record pair = (recordLine pair).text := rfl

theorem mem_assigned (order : List Nat) (pair : Nat × Nat) : pair ∈ net.assigned order ↔
    ∃ i ∈ order, ∃ j ∈ block net.numCtls net.numVnfs i, pair = (net.vnfHostBase + i,ctlHostBase + j) := by
  simp [assigned,eq_comm]

theorem iteration_order (domain : Domain) (built : net.buildDomain = .ok domain) (positive : 0 < net.numVnfs)
    (items : List (Σ _ : Str, List Str)) (iterated : items.Perm domain.entries) :
    ∃ order : List Nat, order.Perm (List.range net.numVnfs) ∧ items = order.map net.entry := by
  obtain ⟨same,built',entries⟩ := net.buildDomain_entries positive
  obtain rfl : domain = same := Except.ok.inj (built.symm.trans built')
  rw [entries] at iterated
  have permuted := iterated.trans (List.reverse_perm _)
  have ranged : items ∈ Set.range (List.map net.entry) := by
    rw [Set.range_list_map]
    intro item member
    obtain ⟨i,_,is⟩ := List.mem_map.mp (permuted.mem_iff.mp member)
    exact ⟨i,is⟩
  obtain ⟨order,rfl⟩ := ranged
  exact ⟨order,(List.map_perm_map_iff net.entry_injective).mp permuted,rfl⟩

theorem readlines_domain (order : List Nat) :
    readlines (printDomain (order.map net.entry)) = (net.assigned order).map fun pair => record pair ++ ['\n'] := by
  have printed : printDomain (order.map net.entry) = domainFile ((net.assigned order).map recordLine) := by
    simp only [printDomain,assigned,entry,domainFile,List.flatMap_map,List.map_flatMap,List.flatMap_assoc,List.map_map]
    rfl
  rw [printed,readlines_domainFile,List.map_map]
  simp only [Function.comp_def,record_text]

theorem domainHosts_records (host : Nat) (pairs : List (Nat × Nat)) :
    Manager.domainHosts (address host) (pairs.map fun pair => record pair ++ ['\n']) =
      .ok ((pairs.filter fun pair => pair.1 = host).map fun pair => (pair.2 : Int)) := by
  induction pairs with
  | nil => rfl
  | cons pair pairs ih =>
    rw [List.map_cons,Manager.domainHosts,record_text,DomainLine.text_unpack]
    simp only [recordLine,bind,Except.bind,address_inj,int_hostOf,ih]
    by_cases mine : pair.1 = host
    · simp [mine]
    · simp [mine]

theorem searchVnf_records (vnf ctl : Nat) (pairs : List (Nat × Nat)) (before : Option Str)
    (member : (vnf,ctl) ∈ pairs) (only : ∀ pair ∈ pairs, pair.2 = ctl → pair.1 = vnf) :
    ConsensusSwitch.searchVnf (address ctl) (pairs.map fun pair => record pair ++ ['\n']) before =
      .ok (address vnf) := by
  have lines : (pairs.map fun pair => record pair ++ ['\n']) = (pairs.map recordLine).map fun line => line.text ++ ['\n'] := by
    simp only [List.map_map,Function.comp_def,record_text]
  have present : ∃ line ∈ pairs.map recordLine, decide (line.controller = address ctl) = true :=
    ⟨_,List.mem_map_of_mem member,decide_eq_true rfl⟩
  obtain ⟨line,inside,mine,found⟩ := search_found _ DomainLine.vnf _ before present
  obtain ⟨pair,listed,rfl⟩ := List.mem_map.mp inside
  rw [lines,searchVnf_search,found,← only pair listed ((address_inj _ _).mp (of_decide_eq_true mine))]
  rfl

/-- The hosts of the controllers assigned to VNF `i`. -/
def hosts (i : Nat) : List Int := (block net.numCtls net.numVnfs i).map fun (j : Nat) => ((ctlHostBase + j : Nat) : Int)

theorem mem_hosts (i : Nat) (x : Int) :
    x ∈ net.hosts i ↔ ∃ j ∈ block net.numCtls net.numVnfs i, x = (ctlHostBase + j : Nat) := by
  simp [hosts,eq_comm]

theorem hosts_range (i : Nat) : net.hosts i =
    range (ctlHostBase + start net.numCtls net.numVnfs i : Nat)
      (ctlHostBase + start net.numCtls net.numVnfs (i + 1) : Nat) := by
  have count : (((ctlHostBase + start net.numCtls net.numVnfs (i + 1) : Nat) : Int) -
      (ctlHostBase + start net.numCtls net.numVnfs i : Nat)).toNat =
        start net.numCtls net.numVnfs (i + 1) - start net.numCtls net.numVnfs i := by
    omega
  rw [hosts,block,range,count,List.range'_eq_map_range,List.map_map,List.map_inj_left]
  intro k _
  simp only [Function.comp]
  omega

theorem interval_bounds (found : List Int) (low high : Int) (nonempty : low < high)
    (filled : ∀ x, x ∈ found ↔ low ≤ x ∧ x < high) : found.min? = some low ∧ found.max? = some (high - 1) := by
  rw [List.min?_eq_some_iff,List.max?_eq_some_iff]
  refine ⟨⟨(filled low).mpr ⟨Int.le_refl _,nonempty⟩,fun x member => ((filled x).mp member).1⟩,
    (filled _).mpr ⟨by omega,by omega⟩,fun x member => ?_⟩
  have bound := ((filled x).mp member).2
  omega

theorem getDomain_records (order : List Nat) (host : Nat) :
    Manager.getDomain (printDomain (order.map net.entry)) (address host) =
      match (((net.assigned order).filter fun pair => pair.1 = host).map fun pair => (pair.2 : Int)).min?,
        (((net.assigned order).filter fun pair => pair.1 = host).map fun pair => (pair.2 : Int)).max? with
      | some low,some high => .ok (range low (high + 1))
      | _,_ => .error .valueError := by
  rw [Manager.getDomain,readlines_domain,domainHosts_records]
  rfl

/-- The hosts that a manager finds in the file are those of the controllers assigned to it. -/
theorem found_hosts (order : List Nat) (i : Nat) (listed : i ∈ order) (x : Int) :
    x ∈ ((net.assigned order).filter fun pair => pair.1 = net.vnfHostBase + i).map (fun pair => (pair.2 : Int)) ↔
      x ∈ net.hosts i := by
  rw [mem_hosts]
  constructor
  · intro found
    obtain ⟨pair,present,rfl⟩ := List.mem_map.mp found
    obtain ⟨from_file,mine⟩ := List.mem_filter.mp present
    obtain ⟨k,_,j,inBlock,rfl⟩ := (net.mem_assigned order pair).mp from_file
    obtain rfl : k = i := by simpa using mine
    exact ⟨j,inBlock,rfl⟩
  · rintro ⟨j,inBlock,rfl⟩
    refine List.mem_map.mpr ⟨(net.vnfHostBase + i,ctlHostBase + j),List.mem_filter.mpr ⟨?_,by simp⟩,rfl⟩
    exact (net.mem_assigned order _).mpr ⟨i,listed,j,inBlock,rfl⟩

theorem getDomain_vnf (order : List Nat) (i : Nat) (listed : i ∈ order) (part : i < net.numVnfs)
    (served : i < net.numCtls) :
    Manager.getDomain (printDomain (order.map net.entry)) (address (net.vnfHostBase + i)) = .ok (net.hosts i) := by
  have present := (block_nonempty net.numCtls net.numVnfs i part).mpr served
  obtain ⟨x,member⟩ := List.exists_mem_of_ne_nil _ present
  have inside := (mem_block net.numCtls net.numVnfs i x).mp member
  have filled : ∀ y : Int,
      y ∈ ((net.assigned order).filter fun pair => pair.1 = net.vnfHostBase + i).map (fun pair => (pair.2 : Int)) ↔
        ((ctlHostBase + start net.numCtls net.numVnfs i : Nat) : Int) ≤ y ∧
          y < (ctlHostBase + start net.numCtls net.numVnfs (i + 1) : Nat) := by
    intro y
    rw [net.found_hosts order i listed,hosts_range,mem_range]
  obtain ⟨low,high⟩ := interval_bounds _ _ _ (by omega) filled
  rw [getDomain_records,low,high,hosts_range]
  simp

theorem getDomain_unserved (order : List Nat) (host : Nat) (unserved : ∀ pair ∈ net.assigned order, pair.1 ≠ host) :
    Manager.getDomain (printDomain (order.map net.entry)) (address host) = .error .valueError := by
  have none : (net.assigned order).filter (fun pair => pair.1 = host) = [] := by
    rw [List.filter_eq_nil_iff]
    intro pair member
    simpa using unserved pair member
  rw [getDomain_records,none]
  rfl

theorem getDomain_empty (order : List Nat) (i : Nat) (part : i < net.numVnfs) (unserved : net.numCtls ≤ i) :
    Manager.getDomain (printDomain (order.map net.entry)) (address (net.vnfHostBase + i)) = .error .valueError := by
  apply getDomain_unserved
  intro pair member mine
  obtain ⟨k,_,j,inBlock,rfl⟩ := (net.mem_assigned order pair).mp member
  obtain rfl : k = i := by simpa using mine
  have empty := mt (block_nonempty net.numCtls net.numVnfs k part).mp (by omega)
  exact empty (List.ne_nil_of_mem inBlock)

theorem getDomain_controller (order : List Nat) (j : Nat) (ctl : j < net.numCtls) :
    Manager.getDomain (printDomain (order.map net.entry)) (address (ctlHostBase + j)) = .error .valueError := by
  apply getDomain_unserved
  intro pair member mine
  obtain ⟨k,_,_,_,rfl⟩ := (net.mem_assigned order pair).mp member
  simp only [vnfHostBase,ctlHostBase] at mine
  omega

theorem getVnf_controller (order : List Nat) (i j : Nat) (listed : i ∈ order)
    (inBlock : j ∈ block net.numCtls net.numVnfs i) :
    ConsensusSwitch.getVnf (printDomain (order.map net.entry)) (address (ctlHostBase + j)) =
      .ok (address (net.vnfHostBase + i)) := by
  rw [ConsensusSwitch.getVnf,readlines_domain]
  apply searchVnf_records
  · exact (net.mem_assigned order _).mpr ⟨i,listed,j,inBlock,rfl⟩
  · intro pair member same
    obtain ⟨k,_,other,inOther,rfl⟩ := (net.mem_assigned order pair).mp member
    obtain rfl : other = j := Nat.add_left_cancel same
    rw [block_unique net.numCtls net.numVnfs k i other inOther inBlock]

/-- Every controller goes to one VNF, in contiguous blocks of balanced sizes. -/
structure Partition (domain : Domain) : Prop where
  keys : ∀ vnf, vnf ∈ domain ↔ vnf ∈ net.vnfs
  tiled : (net.vnfs.map fun vnf => (domain.lookup vnf).getD []).flatten = net.controllers
  unique : ∀ ctl ∈ net.controllers, ∃! vnf, ∃ ctls, domain.lookup vnf = some ctls ∧ ctl ∈ ctls
  balanced : ∀ vnf ctls other others, domain.lookup vnf = some ctls → domain.lookup other = some others →
    ctls.length ≤ others.length + 1

/-- What managers and controllers read from the file is what the dict says. -/
structure ReadersAgree (domain : Domain) (file : Str) : Prop where
  getDomain : ∀ vnf ctls, domain.lookup vnf = some ctls → ctls ≠ [] →
    ∃ found, Manager.getDomain file vnf = .ok found ∧
      ∀ x, x ∈ found ↔ ∃ ctl ∈ ctls, int (ConsensusSwitch.hostOf ctl) = .ok x
  getVnf : ∀ vnf ctls, domain.lookup vnf = some ctls → ∀ ctl ∈ ctls, ConsensusSwitch.getVnf file ctl = .ok vnf

/-- Of the managers that have a domain, the one on the VNF that the sender talks to posts an
intact message, to the sender, and no other one does. -/
def OneManager (domain : Domain) (file : Str) : Prop :=
  ∀ ctl ∈ net.controllers, ∀ request : Request, ∃ vnf ctls,
    ConsensusSwitch.getVnf file ctl = .ok vnf ∧ domain.lookup vnf = some ctls ∧ ctl ∈ ctls ∧
      ∀ other others, domain.lookup other = some others → others ≠ [] →
        ∃ found, Manager.getDomain file other = .ok found ∧
          Manager.handleRequest found (request.message (ConsensusSwitch.hostOf ctl)) =
            .ok (if other = vnf then
              some { url := "http://".toList ++ ctl ++ ":8080/stats/flowentry/add".toList,data := request.rule }
            else none)

variable {net}

theorem lookup_entry (domain : Domain) (entries : domain.entries = ((List.range net.numVnfs).map net.entry).reverse)
    (vnf : Str) (ctls : List Str) :
    domain.lookup vnf = some ctls ↔ ∃ i < net.numVnfs, vnf = address (net.vnfHostBase + i) ∧
      ctls = (block net.numCtls net.numVnfs i).map fun j => address (ctlHostBase + j) := by
  rw [← Option.mem_def,AList.mem_lookup_iff,entries]
  simp [entry,eq_comm]

theorem mem_controllers (ctl : Str) : ctl ∈ net.controllers ↔ ∃ j < net.numCtls, ctl = address (ctlHostBase + j) := by
  simp [controllers,eq_comm]

theorem mem_vnfs (vnf : Str) : vnf ∈ net.vnfs ↔ ∃ i < net.numVnfs, vnf = address (net.vnfHostBase + i) := by
  simp [vnfs,eq_comm]

theorem buildDomain_partition (domain : Domain) (positive : 0 < net.numVnfs)
    (entries : domain.entries = ((List.range net.numVnfs).map net.entry).reverse) : net.Partition domain where
  keys vnf := by
    rw [← AList.lookup_isSome,Option.isSome_iff_exists,mem_vnfs]
    simp [lookup_entry domain entries]
  tiled := by
    have blocks : (net.vnfs.map fun vnf => (domain.lookup vnf).getD []) =
        (List.range net.numVnfs).map fun i =>
          (block net.numCtls net.numVnfs i).map fun j => address (ctlHostBase + j) := by
      rw [vnfs,List.map_map,List.map_inj_left]
      intro i member
      have found := (lookup_entry domain entries _ _).mpr ⟨i,List.mem_range.mp member,rfl,rfl⟩
      simp only [Function.comp,found,Option.getD_some]
    rw [blocks,← List.flatMap_def,← List.map_flatMap,blocks_tile _ _ positive,controllers]
  unique ctl member := by
    obtain ⟨j,inside,rfl⟩ := (mem_controllers ctl).mp member
    obtain ⟨i,part,inBlock⟩ := block_exists _ _ j positive inside
    refine ⟨address (net.vnfHostBase + i),⟨_,(lookup_entry domain entries _ _).mpr ⟨i,part,rfl,rfl⟩,?_⟩,?_⟩
    · exact List.mem_map.mpr ⟨j,inBlock,rfl⟩
    · intro other serves
      obtain ⟨ctls,found,listed⟩ := serves
      obtain ⟨k,_,rfl,rfl⟩ := (lookup_entry domain entries _ _).mp found
      obtain ⟨l,inOther,same⟩ := List.mem_map.mp listed
      obtain rfl : l = j := Nat.add_left_cancel ((address_inj _ _).mp same)
      rw [block_unique _ _ k i l inOther inBlock]
  balanced vnf ctls other others first second := by
    obtain ⟨i,_,_,rfl⟩ := (lookup_entry domain entries _ _).mp first
    obtain ⟨k,_,_,rfl⟩ := (lookup_entry domain entries _ _).mp second
    simpa using block_balanced net.numCtls net.numVnfs i k

theorem served_part (i : Nat) (part : i < net.numVnfs)
    (present : ((block net.numCtls net.numVnfs i).map fun j => address (ctlHostBase + j)) ≠ []) : i < net.numCtls :=
  (block_nonempty _ _ i part).mp fun empty => present (by rw [empty,List.map_nil])

theorem readers_agree (domain : Domain) (entries : domain.entries = ((List.range net.numVnfs).map net.entry).reverse)
    (order : List Nat) (permuted : order.Perm (List.range net.numVnfs)) :
    ReadersAgree domain (printDomain (order.map net.entry)) where
  getDomain vnf ctls found present := by
    obtain ⟨i,part,rfl,rfl⟩ := (lookup_entry domain entries _ _).mp found
    have listed : i ∈ order := permuted.mem_iff.mpr (List.mem_range.mpr part)
    refine ⟨_,net.getDomain_vnf order i listed part (served_part i part present),?_⟩
    intro x
    rw [mem_hosts]
    simp [eq_comm]
  getVnf vnf ctls found ctl member := by
    obtain ⟨i,part,rfl,rfl⟩ := (lookup_entry domain entries _ _).mp found
    obtain ⟨j,inBlock,rfl⟩ := List.mem_map.mp member
    exact net.getVnf_controller order i j (permuted.mem_iff.mpr (List.mem_range.mpr part)) inBlock

theorem one_manager (domain : Domain) (positive : 0 < net.numVnfs)
    (entries : domain.entries = ((List.range net.numVnfs).map net.entry).reverse)
    (order : List Nat) (permuted : order.Perm (List.range net.numVnfs)) :
    net.OneManager domain (printDomain (order.map net.entry)) := by
  have listed (i : Nat) (part : i < net.numVnfs) : i ∈ order := permuted.mem_iff.mpr (List.mem_range.mpr part)
  intro ctl member request
  obtain ⟨j,inside,rfl⟩ := (mem_controllers ctl).mp member
  obtain ⟨i,part,inBlock⟩ := block_exists _ _ j positive inside
  refine ⟨_,_,net.getVnf_controller order i j (listed i part) inBlock,
    (lookup_entry domain entries _ _).mpr ⟨i,part,rfl,rfl⟩,List.mem_map.mpr ⟨j,inBlock,rfl⟩,?_⟩
  intro other others found present
  obtain ⟨k,other_part,rfl,rfl⟩ := (lookup_entry domain entries _ _).mp found
  refine ⟨_,net.getDomain_vnf order k (listed k other_part) other_part (served_part k other_part present),?_⟩
  have mine : ((ctlHostBase + j : Nat) : Int) ∈ net.hosts k ↔
      address (net.vnfHostBase + k) = address (net.vnfHostBase + i) := by
    rw [mem_hosts,address_inj]
    constructor
    · intro inside
      obtain ⟨l,inOther,same⟩ := inside
      obtain rfl : j = l := by omega
      rw [block_unique _ _ k i j inOther inBlock]
    · intro same
      obtain rfl : k = i := Nat.add_left_cancel same
      exact ⟨j,inBlock,rfl⟩
  rw [hostOf_address,Manager.handleRequest_message,address_url]
  simp only [mine]

/-- The domains partition the controllers, and however the dict is iterated for the file,
managers and controllers read the same assignment from it. -/
theorem domains_agree (net : Network) (positive : 1 ≤ net.numVnfs) :
    ∃ domain, net.buildDomain = .ok domain ∧ net.Partition domain ∧
      ∀ items : List (Σ _ : Str, List Str), items.Perm domain.entries →
        ReadersAgree domain (printDomain items) ∧ net.OneManager domain (printDomain items) := by
  obtain ⟨domain,built,entries⟩ := net.buildDomain_entries positive
  refine ⟨domain,built,buildDomain_partition domain positive entries,?_⟩
  intro items iterated
  obtain ⟨order,permuted,rfl⟩ := net.iteration_order domain built positive items iterated
  exact ⟨readers_agree domain entries order permuted,one_manager domain positive entries order permuted⟩

theorem domains_agree_five : ∃ domain, (Network.mk 5 2).buildDomain = .ok domain ∧ (Network.mk 5 2).Partition domain ∧
    ∀ items : List (Σ _ : Str, List Str), items.Perm domain.entries →
      ReadersAgree domain (printDomain items) ∧ (Network.mk 5 2).OneManager domain (printDomain items) :=
  domains_agree (Network.mk 5 2) (by decide)

end Build
end Network
end NfvConsensus
