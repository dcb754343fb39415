import NfvConsensus.ConsensusSwitch
import NfvConsensus.Network
import NfvConsensus.Foundation.Search

/-! A domain file and the search of it for a controller, which is a search for a first match
that keeps its last candidate. -/
namespace NfvConsensus.Network
open Python Foundation.Text Foundation.Search

/-- A line of a domain file: two fields without the separators. -/
structure DomainLine where
  vnf : Str
  controller : Str
  vnf_plain : ' ' ∉ vnf ∧ '\n' ∉ vnf
  controller_plain : ' ' ∉ controller ∧ '\n' ∉ controller

namespace DomainLine

def text (line : DomainLine) : Str := join [' '] [line.vnf,line.controller]

theorem text_spaced (line : DomainLine) : line.text = line.vnf ++ ' ' :: line.controller := join_pair _ _ _

theorem text_single (line : DomainLine) : '\n' ∉ line.text := by
  rw [text_spaced]
  simp [line.vnf_plain.2,line.controller_plain.2]

theorem text_unpack (line : DomainLine) :
    unpack (split ' ' (chop (line.text ++ ['\n']))) = .ok (line.vnf,line.controller) := by
  rw [chop,List.dropLast_concat,text_spaced,split_first _ _ _ line.vnf_plain.1,split_absent _ _ line.controller_plain.1]
  rfl

end DomainLine

def domainFile (lines : List DomainLine) : Str := lines.flatMap fun line => line.text ++ ['\n']

theorem readlines_domainFile (lines : List DomainLine) :
    readlines (domainFile lines) = lines.map fun line => line.text ++ ['\n'] := by
  have joined : domainFile lines = (lines.map DomainLine.text).flatMap (· ++ ['\n']) := by
    rw [domainFile,List.flatMap_map]
  rw [joined,readlines,lines_records,List.map_map]
  · rfl
  · intro text member
    obtain ⟨line,_,rfl⟩ := List.mem_map.mp member
    exact line.text_single

theorem searchVnf_search (ip : Str) (lines : List DomainLine) (before : Option Str) :
    ConsensusSwitch.searchVnf ip (lines.map fun line => line.text ++ ['\n']) before =
      match search (fun line => decide (line.controller = ip)) DomainLine.vnf lines before with
      | some vnf => .ok vnf
      | none => .error .nameError := by
  induction lines generalizing before with
  | nil => cases before <;> rfl
  | cons line lines ih =>
    simp only [List.map_cons,ConsensusSwitch.searchVnf,DomainLine.text_unpack,bind,Except.bind,search,ih]
    by_cases mine : line.controller = ip
    · simp [mine]
    · simp [mine]

end NfvConsensus.Network
