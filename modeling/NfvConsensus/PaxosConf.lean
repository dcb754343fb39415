import NfvConsensus.Domains

/-! `paxos.conf`. The lines of it that name an address of the network are the ones
`create_paxos_conf` appends, and splitting them gives back the fields joined. -/
namespace NfvConsensus
open Python Foundation.Text Foundation.Blocks
namespace Network

/-- What is assumed of `paxos.conf.example`. -/
structure Template (data : Str) : Prop where
  terminated : ∃ front, data = front ++ ['\n']
  foreign : ∀ line ∈ readlines data, contains "172.17.0".toList line = false

section Conf
variable (net : Network)

def proposerFields : List Str := ["proposer".toList,"0".toList,address net.vnfHostBase,"5550".toList]

def acceptorFields (i : Nat) : List Str :=
  ["acceptor".toList,str i,address (net.vnfHostBase + i),str (8800 + i)]

def confRecords : List Str :=
  join [' '] net.proposerFields :: (List.range net.numVnfs).map fun i => join [' '] (net.acceptorFields i)

def confFile (data : Str) : Str := data ++ net.confRecords.flatMap (· ++ ['\n'])

theorem proposerLine_fields :
    proposerLine (address net.vnfHostBase) = join [' '] net.proposerFields ++ ['\n'] := by
  have port : "5550\n".toList = "5550".toList ++ ['\n'] := by
    rw [← show "\n".toList = ['\n'] from String.toList_ofList]
    exact literal_append
  simp only [proposerLine,proposerFields,port,join_cons,join_singleton,List.append_assoc]

theorem acceptorLine_fields (i : Nat) :
    acceptorLine (address (net.vnfHostBase + i)) i = join [' '] (net.acceptorFields i) ++ ['\n'] := by
  simp only [acceptorLine,acceptorFields,join_cons,join_singleton,List.append_assoc]

theorem vnfs_indexed : net.vnfs.zipIdx = (List.range net.numVnfs).map fun i => (address (net.vnfHostBase + i),i) := by
  apply List.ext_getElem
  · simp [vnfs]
  · intro i left right
    simp [vnfs]

theorem createPaxosConf_records (data : Str) (positive : 0 < net.numVnfs) :
    net.createPaxosConf data = .ok (net.confFile data) := by
  obtain ⟨m,count⟩ := Nat.exists_eq_add_of_lt positive
  rw [Nat.zero_add] at count
  have first : net.vnfs = address net.vnfHostBase :: (List.range m).map fun i => address (net.vnfHostBase + (i + 1)) := by
    rw [vnfs,count,List.range_succ_eq_map,List.map_cons,List.map_map]
    rfl
  have listed : net.vnfs.zipIdx.flatMap (fun entry => acceptorLine entry.1 entry.2) =
      ((List.range net.numVnfs).map fun i => join [' '] (net.acceptorFields i)).flatMap (· ++ ['\n']) := by
    rw [vnfs_indexed,List.flatMap_map,List.flatMap_map]
    simp only [acceptorLine_fields]
  unfold createPaxosConf
  rw [listed]
  simp only [first,confFile,confRecords,proposerLine_fields,List.flatMap_cons,List.append_assoc]

theorem fields_plain (c : Char) (other : c.isDigit = false := by decide) (dot : c ≠ '.' := by decide)
    (lower : c.isLower = false := by decide) :
    (∀ field ∈ net.proposerFields, c ∉ field) ∧ ∀ i, ∀ field ∈ net.acceptorFields i, c ∉ field := by
  have digits (n : Nat) := str_absent n c other
  have addresses (host : Nat) := address_absent host c other dot
  constructor
  · simp only [proposerFields,List.forall_mem_cons]
    exact ⟨check_absent (literal_all _) lower,check_absent (literal_all _) other,addresses _,
      check_absent (literal_all _) other,List.forall_mem_nil _⟩
  · intro i
    simp only [acceptorFields,List.forall_mem_cons]
    exact ⟨check_absent (literal_all _) lower,digits _,addresses _,digits _,List.forall_mem_nil _⟩

theorem split_proposer : split ' ' (join [' '] net.proposerFields) = net.proposerFields :=
  split_join ' ' _ (List.cons_ne_nil _ _) (net.fields_plain ' ').1

theorem split_acceptor (i : Nat) : split ' ' (join [' '] (net.acceptorFields i)) = net.acceptorFields i :=
  split_join ' ' _ (List.cons_ne_nil _ _) ((net.fields_plain ' ').2 i)

theorem field_inside (sep : Str) (fields : List Str) (field : Str) (member : field ∈ fields) :
    field <:+: join sep fields := by
  induction fields with
  | nil => simp at member
  | cons first fields ih =>
    cases fields with
    | nil => rw [List.mem_singleton.mp member,join_singleton]
    | cons second fields =>
      rw [join_cons]
      rcases List.mem_cons.mp member with rfl | later
      · rw [List.append_assoc]
        exact (List.prefix_append _ _).isInfix
      · exact (ih later).trans (List.suffix_append _ _).isInfix

theorem join_absent (c : Char) (fields : List Str) (absent : ∀ field ∈ fields, c ∉ field) (other : c ≠ ' ' := by decide) :
    c ∉ join [' '] fields := by
  induction fields with
  | nil => simp [join]
  | cons first fields ih =>
    have first_absent := absent first (by simp)
    cases fields with
    | nil => rwa [join_singleton]
    | cons second fields =>
      have rest := ih fun field member => absent field (by simp [member])
      simp [join_cons,first_absent,rest,other]

theorem confRecords_single : ∀ line ∈ net.confRecords, '\n' ∉ line := by
  have ⟨proposer,acceptor⟩ := net.fields_plain '\n'
  intro line member
  rcases List.mem_cons.mp member with rfl | later
  · exact join_absent _ _ proposer
  · obtain ⟨i,_,rfl⟩ := List.mem_map.mp later
    exact join_absent _ _ (acceptor i)

theorem address_marked (host : Nat) : "172.17.0".toList <:+: address host := by
  have base : ipBase = "172.17.0".toList ++ ".".toList := literal_append
  rw [address,base,List.append_assoc]
  exact (List.prefix_append _ _).isInfix

theorem confRecords_marked : ∀ line ∈ net.confRecords, "172.17.0".toList <:+: line := by
  intro line member
  rcases List.mem_cons.mp member with rfl | later
  · exact (address_marked net.vnfHostBase).trans (field_inside _ _ _ (by simp [proposerFields]))
  · obtain ⟨i,_,rfl⟩ := List.mem_map.mp later
    exact (address_marked (net.vnfHostBase + i)).trans (field_inside _ _ _ (by simp [acceptorFields]))

theorem readlines_conf (data : Str) (template : Template data) :
    readlines (net.confFile data) = readlines data ++ net.confRecords.map (· ++ ['\n']) := by
  obtain ⟨front,rfl⟩ := template.terminated
  rw [confFile,readlines,List.append_assoc,List.singleton_append,lines_append,lines_records _ net.confRecords_single]
  rfl

/-- Nothing of the template passes the filter, and everything appended does. -/
theorem confLines_conf (data : Str) (template : Template data) :
    Manager.confLines (net.confFile data) = net.confRecords := by
  have dropped : (readlines data).filter (contains "172.17.0".toList) = [] := by
    rw [List.filter_eq_nil_iff]
    intro line member
    rw [template.foreign line member]
    exact Bool.false_ne_true
  have kept : (net.confRecords.map (· ++ ['\n'])).filter (contains "172.17.0".toList) =
      net.confRecords.map (· ++ ['\n']) := by
    rw [List.filter_eq_self]
    intro line member
    obtain ⟨record,present,rfl⟩ := List.mem_map.mp member
    exact decide_eq_true ((net.confRecords_marked record present).trans (List.prefix_append _ _).isInfix)
  rw [Manager.confLines,readlines_conf net data template,List.filter_append,dropped,kept,List.nil_append,
    List.map_map]
  simp [Function.comp_def,chop]

end Conf

end Network
end NfvConsensus
