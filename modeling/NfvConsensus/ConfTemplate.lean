import NfvConsensus.PaxosConf

/-! `paxos.conf.example`, as it is in the repository: none of its lines names an address of the
network, so it is a template. -/
namespace NfvConsensus.Network
open Python Foundation.Text

def exampleLines : List Str := [
  "## LibPaxos configuration file".toList,
  "".toList,
  "# Specify an id, ip address and port for each replica.".toList,
  "# Ids must start from 0 and must be unique.".toList,
  "#replica 0 127.0.0.1 8800".toList,
  "#replica 1 127.0.0.1 8801".toList,
  "#replica 2 127.0.0.1 8802".toList,
  "".toList,
  "# Alternatively it is possible to specify acceptors and proposers separately.".toList,
  "# proposer 1 127.0.0.1 5551".toList,
  "# proposer 2 127.0.0.1 5552".toList,
  "".toList,
  "".toList,
  "# Verbosity level: must be one of quiet, error, info, or debug.".toList,
  "# Default is info.".toList,
  " verbosity debug".toList,
  "".toList,
  "# Enable TCP_NODELAY?".toList,
  "# Default is 'yes'.".toList,
  "# tcp-nodelay no".toList,
  "".toList,
  "################################### Learners ##################################".toList,
  "".toList,
  "# Should learners start from instance 0 when starting up?".toList,
  "# Default is 'yes'.".toList,
  " learner-catch-up yes".toList,
  "".toList,
  "################################## Proposers ##################################".toList,
  "".toList,
  "# How many seconds should pass before a proposer times out an instance?".toList,
  "# Default is 1.".toList,
  "# proposer-timeout 10".toList,
  "".toList,
  "# How many phase 1 instances should proposers preexecute?".toList,
  "# Default is 128.".toList,
  "# proposer-preexec-window 1024".toList,
  "".toList,
  "################################## Acceptors ##################################".toList,
  "".toList,
  "# Acceptor storage backend: must be one of memory or lmdb.".toList,
  "# Default is memory.".toList,
  "# storage-backend lmdb".toList,
  "".toList,
  "# Should the acceptor trash previous storage files and start from scratch?".toList,
  "# This is here only for testing purposes.".toList,
  "# Default is 'no'.".toList,
  "# acceptor-trash-files yes".toList,
  "".toList,
  "############################ LMDB acceptor storage ############################".toList,
  "".toList,
  "# Should lmdb write to disk synchronously?".toList,
  "# Default is 'no'.".toList,
  "# lmdb-sync yes".toList,
  "".toList,
  "# Path for lmdb database environment.".toList,
  "lmdb-env-path /tmp/acceptor".toList,
  "".toList,
  "# lmdb's map size in bytes (maximum size of the database).".toList,
  "# Accepted units are mb, kb and gb.".toList,
  "# Default is 10mb.".toList,
  "# lmdb-mapsize 1gb".toList]

def paxosConfExample : Str := exampleLines.flatMap (· ++ ['\n'])

/-- A line is checked on the list of its characters, so that the literal is not decoded. -/
theorem literal_foreign {text : List Char} (checked : ('\n' ∉ text ∧ ¬['1','7'] <:+: text ++ ['\n']) := by decide +kernel) :
    '\n' ∉ (String.ofList text).toList ∧ contains "172.17.0".toList ((String.ofList text).toList ++ ['\n']) = false := by
  have opening : "172.17.0".toList = ['1','7'] ++ "2.17.0".toList := by
    rw [show ['1','7'] = "17".toList from String.toList_ofList.symm]
    exact literal_append
  rw [String.toList_ofList,contains,decide_eq_false_iff_not,opening]
  exact ⟨checked.1,fun inside => checked.2 ((List.prefix_append _ _).isInfix.trans inside)⟩

theorem exampleLines_foreign : ∀ line ∈ exampleLines, '\n' ∉ line ∧ contains "172.17.0".toList (line ++ ['\n']) = false := by
  dsimp only [exampleLines]
  repeat refine List.forall_mem_cons.mpr ⟨literal_foreign,?_⟩
  exact List.forall_mem_nil _

theorem paxosConfExample_template : Template paxosConfExample := by
  have single : ∀ line ∈ exampleLines, '\n' ∉ line := fun line member => (exampleLines_foreign line member).1
  constructor
  · have present : exampleLines ≠ [] := List.cons_ne_nil _ _
    refine ⟨exampleLines.dropLast.flatMap (· ++ ['\n']) ++ exampleLines.getLast present,?_⟩
    have lines := congrArg (List.flatMap (· ++ ['\n'])) (List.dropLast_append_getLast present)
    rw [List.flatMap_append,List.flatMap_singleton,← List.append_assoc] at lines
    exact lines.symm
  · intro line member
    rw [paxosConfExample,readlines,lines_records _ single] at member
    obtain ⟨text,inside,rfl⟩ := List.mem_map.mp member
    exact (exampleLines_foreign text inside).2

end NfvConsensus.Network
