import NfvConsensus.Roles
import NfvConsensus.System

/-! The start of the containers. Controllers and managers find their address in what `ifconfig`
prints, and everything else in the files that `network.py` has written; together they start as
the system is said to. -/
namespace NfvConsensus
open Python Foundation.Text Foundation.Blocks

def grep (pattern : Str) (input : List Str) : List Str := input.filter (contains pattern)

def cut (delimiter : Char) (field : Nat) (input : List Str) : List Str :=
  input.map fun line => if delimiter ∈ line then ((split delimiter line)[field - 1]?).getD [] else line

/-- The lines of a text, which need not end with a newline. -/
def shellLines (text : Str) : List Str :=
  (readlines text).map fun line => if line.getLast? = some '\n' then chop line else line

/-- `get_my_ip` of controllers and managers on what `ifconfig eth0` prints. -/
def getMyIp (ifconfig : Str) : Str :=
  let found := cut ' ' 1 (cut ':' 2 (grep "inet addr".toList (shellLines ifconfig)))
  chop (found.flatMap (· ++ ['\n']))

/-- What `ifconfig eth0` prints where the interface has an address: one of the lines has it,
between its first colon and a blank. -/
def Ifconfig (ip text : Str) : Prop :=
  ∃ front before after back, text = (front ++ (before ++ "inet addr:".toList ++ ip ++ ' ' :: after) :: back).flatMap (· ++ ['\n']) ∧
    (∀ line ∈ front ++ back, '\n' ∉ line ∧ contains "inet addr".toList line = false) ∧
      (':' ∉ before ∧ '\n' ∉ before) ∧ '\n' ∉ after

theorem shellLines_records (records : List Str) (single : ∀ record ∈ records, '\n' ∉ record) :
    shellLines (records.flatMap (· ++ ['\n'])) = records := by
  rw [shellLines,readlines,lines_records records single,List.map_map]
  have each (record : Str) : (if (record ++ ['\n']).getLast? = some '\n' then chop (record ++ ['\n'])
      else record ++ ['\n']) = record := by
    rw [List.getLast?_concat,if_pos rfl,chop,List.dropLast_concat]
  exact (List.map_congr_left fun record _ => each record).trans (List.map_id _)

theorem grep_own (pattern line : Str) (front back : List Str) (own : contains pattern line = true)
    (others : ∀ other ∈ front ++ back, contains pattern other = false) :
    grep pattern (front ++ line :: back) = [line] := by
  have before : front.filter (contains pattern) = [] :=
    List.filter_eq_nil_iff.mpr fun other member => by simp [others other (by simp [member])]
  have after : back.filter (contains pattern) = [] :=
    List.filter_eq_nil_iff.mpr fun other member => by simp [others other (by simp [member])]
  rw [grep,List.filter_append,before,List.filter_cons_of_pos own,after,List.nil_append]

theorem cut_first (delimiter : Char) (field rest : Str) (absent : delimiter ∉ field) :
    cut delimiter 1 [field ++ delimiter :: rest] = [field] := by
  have split_off := split_first delimiter field rest absent
  simp [cut,split_off]

theorem cut_second (delimiter : Char) (first second rest : Str) (absent : delimiter ∉ first) (also : delimiter ∉ second) :
    ∃ front, cut delimiter 2 [first ++ delimiter :: (second ++ rest)] = [second ++ front] := by
  have split_off := split_first delimiter first (second ++ rest) absent
  by_cases more : delimiter ∈ rest
  · obtain ⟨front,back,rfl,none⟩ := List.eq_append_cons_of_mem more
    have second_off := split_first delimiter (second ++ front) back (by simp [also,none])
    rw [List.append_assoc] at second_off
    refine ⟨front,?_⟩
    simp [cut,split_off,second_off]
  · have whole := split_absent delimiter (second ++ rest) (by simp [also,more])
    refine ⟨rest,?_⟩
    simp [cut,split_off,whole]

theorem inet_chars : "inet addr:".toList = "inet addr".toList ++ [':'] := by
  rw [← show ":".toList = [':'] from String.toList_ofList]
  exact literal_append

theorem getMyIp_own (ip text : Str) (colon : ':' ∉ ip) (blank : ' ' ∉ ip) (newline : '\n' ∉ ip)
    (printed : Ifconfig ip text) : getMyIp text = ip := by
  obtain ⟨front,before,after,back,rfl,others,⟨unmarked,single⟩,last⟩ := printed
  have shape : before ++ "inet addr:".toList ++ ip ++ ' ' :: after =
      (before ++ "inet addr".toList) ++ ':' :: ((ip ++ [' ']) ++ after) := by
    rw [inet_chars]
    simp
  have records : ∀ record ∈ front ++ (before ++ "inet addr:".toList ++ ip ++ ' ' :: after) :: back, '\n' ∉ record := by
    intro record member
    rcases List.mem_append.mp member with early | late
    · exact (others record (by simp [early])).1
    · rcases List.mem_cons.mp late with rfl | later
      · rw [shape]
        simp [single,newline,last]
      · exact (others record (by simp [later])).1
  have own : contains "inet addr".toList (before ++ "inet addr:".toList ++ ip ++ ' ' :: after) = true := by
    rw [contains,decide_eq_true_eq,shape]
    exact ⟨before,_,rfl⟩
  have found := grep_own _ _ front back own fun other member => (others other member).2
  obtain ⟨rest,second⟩ := cut_second ':' (before ++ "inet addr".toList) (ip ++ [' ']) after
    (by simp [unmarked]) (by simp [colon])
  have first := cut_first ' ' ip rest blank
  rw [getMyIp,shellLines_records _ records]
  rw [found,shape,second,List.append_assoc,List.singleton_append,first]
  simp [chop]

namespace ConsensusSwitch

/-- The address, the host and the VNF that a controller has when it connects. -/
structure Started where
  ip : Str
  host : Str
  vnf : Str

def init (domain ifconfig : Str) : Except Error Started := do
  let ip := getMyIp ifconfig
  let vnf ← getVnf domain ip
  .ok ⟨ip,hostOf ip,vnf⟩

end ConsensusSwitch

namespace Manager

def start (domain paxosConf ifconfig : Str) : Except Error (List Int) × Startup :=
  let ip := getMyIp ifconfig
  (getDomain domain ip,init domain paxosConf ip)

end Manager

namespace Network

/-- Every controller has the host that its messages end with and the VNF of its block; and the
managers that come up are those of the system, with their domains, one acceptor each and one
proposer. -/
structure Starts (net : Network) (file conf : Str) : Prop where
  controllers : ∀ j < net.numCtls, ∀ text, Ifconfig (address (ctlHostBase + j)) text →
    ∃ i, System.Up net i ∧ j ∈ block net.numCtls net.numVnfs i ∧ ConsensusSwitch.init file text =
      .ok ⟨address (ctlHostBase + j),System.controllerHost j,address (net.vnfHostBase + i)⟩
  managers : ∀ i, System.Up net i → ∀ text, Ifconfig (address (net.vnfHostBase + i)) text →
    Manager.start file conf text = (.ok (net.hosts i),⟨vnfRoles i,none⟩)
  others : ∀ i < net.numVnfs, ¬System.Up net i → ∀ text, Ifconfig (address (net.vnfHostBase + i)) text →
    Manager.start file conf text = (.error .valueError,⟨[],some .valueError⟩)

theorem address_own (host : Nat) (text : Str) (printed : Ifconfig (address host) text) : getMyIp text = address host :=
  getMyIp_own _ text (address_absent host ':') (address_absent host ' ') (address_absent host '\n') printed

/-- Whatever the sizes, the order in which the domains are written and the rest of the output of
`ifconfig`. -/
theorem network_starts (net : Network) (positive : 1 ≤ net.numVnfs) (data : Str) (template : Template data) :
    ∃ domain conf, net.buildDomain = .ok domain ∧ net.createPaxosConf data = .ok conf ∧
      ∀ items : List (Σ _ : Str, List Str), items.Perm domain.entries → net.Starts (printDomain items) conf := by
  obtain ⟨domain,built,entries⟩ := net.buildDomain_entries positive
  refine ⟨domain,_,built,net.createPaxosConf_records data positive,?_⟩
  intro items iterated
  obtain ⟨order,permuted,rfl⟩ := net.iteration_order domain built positive items iterated
  have listed (i : Nat) (part : i < net.numVnfs) : i ∈ order := permuted.mem_iff.mpr (List.mem_range.mpr part)
  constructor
  · intro j inside text printed
    obtain ⟨i,part,member⟩ := block_exists net.numCtls net.numVnfs j positive inside
    have served := (block_nonempty _ _ i part).mp (List.ne_nil_of_mem member)
    refine ⟨i,⟨part,served⟩,member,?_⟩
    rw [ConsensusSwitch.init,address_own _ text printed,net.getVnf_controller order i j (listed i part) member]
    rfl
  · intro i up text printed
    obtain ⟨part,served⟩ := up
    rw [Manager.start,address_own _ text printed,net.getDomain_vnf order i (listed i part) part served,
      net.init_vnf data template order i (listed i part) part served]
  · intro i part down text printed
    have unserved : net.numCtls ≤ i := Nat.le_of_not_lt fun served => down ⟨part,served⟩
    rw [Manager.start,address_own _ text printed,net.getDomain_empty order i part unserved,
      net.init_empty _ order i part unserved]

/-- The three lines that matter of a container's interface. -/
def sampleIfconfig (host : Nat) : Str :=
  (["eth0      Link encap:Ethernet  HWaddr 02:42:ac:11:00:02".toList] ++
    ("          ".toList ++ "inet addr:".toList ++ address host ++ ' ' :: " Bcast:0.0.0.0  Mask:255.255.0.0".toList) ::
      ["          inet6 addr: fe80::42:acff:fe11:2/64 Scope:Link".toList]).flatMap (· ++ ['\n'])

theorem sample_printed (host : Nat) : Ifconfig (address host) (sampleIfconfig host) := by
  refine ⟨_,_,_,_,rfl,?_,by decide +kernel,by decide +kernel⟩
  decide +kernel

theorem network_starts_sample : ∃ domain conf, (Network.mk 3 2).buildDomain = .ok domain ∧
    (Network.mk 3 2).createPaxosConf paxosConfExample = .ok conf ∧
    (∃ started, ConsensusSwitch.init (printDomain domain.entries) (sampleIfconfig 2) = .ok started ∧
      started.ip = address 2 ∧ started.host = System.controllerHost 0) ∧
    Manager.start (printDomain domain.entries) conf (sampleIfconfig (Network.mk 3 2).vnfHostBase) =
      (.ok ((Network.mk 3 2).hosts 0),⟨vnfRoles 0,none⟩) := by
  obtain ⟨domain,conf,built,created,starts⟩ := network_starts (Network.mk 3 2) (by decide) paxosConfExample paxosConfExample_template
  have all := starts domain.entries (List.Perm.refl _)
  obtain ⟨i,_,_,started⟩ := all.controllers 0 (by decide) _ (sample_printed 2)
  exact ⟨domain,conf,built,created,⟨_,started,rfl,rfl⟩,all.managers 0 ⟨by decide,by decide⟩ _ (sample_printed _)⟩

end Network
end NfvConsensus
