import NfvConsensus.ParsePaxos
import NfvConsensus.ManagerPerformance
import NfvConsensus.Foundation.Groups

/-! From a manager's log to the series of consensus per second. The counters of one second are
consecutive, so their maximum minus their minimum is one less than their number. -/
namespace NfvConsensus.ParsePaxos
open Python Foundation.Text Foundation.Groups

def pad (n : Nat) : Str := if n < 10 then '0' :: str n else str n

/-- `strftime('%H:%M:%S')`, `t` being the second of the day. -/
def clock (t : Nat) : Str := pad (t / 3600) ++ ':' :: (pad (t / 60 % 60) ++ ':' :: pad (t % 60))

def logLine (entry : Str × Nat) : Str := join [' '] [entry.1,str entry.2]

def logText (log : List (Str × Nat)) : Str := log.flatMap fun entry => logLine entry ++ ['\n']

theorem pad_absent (n : Nat) (c : Char) (other : c.isDigit = false := by decide) : c ∉ pad n := by
  have digits := str_absent n c other
  have digit : '0'.isDigit = true := rfl
  have zero : '0' ≠ c := apart digit other
  unfold pad
  split
  · simp [zero.symm,digits]
  · exact digits

theorem pad_injective : Function.Injective pad := by
  intro n m same
  have padded (small large : Nat) (long : ¬large < 10) (equal : '0' :: str small = str large) : small = large := by
    have head := decimal_head large (by omega)
    rw [← str,← equal] at head
    exact absurd rfl head
  unfold pad at same
  split at same
  · split at same
    · exact (str_inj n m).mp (List.cons.inj same).2
    · rename_i long
      exact padded n m long same
  · rename_i long
    split at same
    · exact (padded m n long same.symm).symm
    · exact (str_inj n m).mp same

theorem clock_fields (t : Nat) : split ':' (clock t) = [pad (t / 3600),pad (t / 60 % 60),pad (t % 60)] := by
  have absent (n : Nat) := pad_absent n ':'
  rw [clock,split_first _ _ _ (absent _),split_first _ _ _ (absent _),split_absent _ _ (absent _)]

theorem clock_injective : Function.Injective clock := by
  intro t s same
  have fields := congrArg (split ':') same
  rw [clock_fields,clock_fields] at fields
  simp only [List.cons.injEq,pad_injective.eq_iff,and_true] at fields
  omega

theorem clock_absent (t : Nat) (c : Char) (other : c.isDigit = false := by decide) (colon : c ≠ ':' := by decide) :
    c ∉ clock t := by
  simp [clock,pad_absent _ c other,colon]

theorem logLine_spaced (entry : Str × Nat) : logLine entry = entry.1 ++ ' ' :: str entry.2 := join_pair _ _ _

theorem readlines_log (log : List (Str × Nat)) (single : ∀ entry ∈ log, '\n' ∉ entry.1) :
    (readlines (logText log)).map stripped = log.map logLine := by
  have text : logText log = (log.map logLine).flatMap (· ++ ['\n']) := by rw [logText,List.flatMap_map]
  rw [text,readlines,lines_records,List.map_map,List.map_map,List.map_inj_left]
  · intro entry _
    simp [stripped,chop]
  · intro line member
    obtain ⟨entry,inside,rfl⟩ := List.mem_map.mp member
    have digits := str_absent entry.2 '\n'
    rw [logLine_spaced]
    simp [single entry inside,digits]

def grouped (result : Result) (log : List (Str × Nat)) : Result :=
  log.foldl (fun result entry => result.insert entry.1 ((result.lookup entry.1).getD [] ++ [(entry.2 : Int)])) result

theorem collect_log (result : Result) (log : List (Str × Nat)) (spaceless : ∀ entry ∈ log, ' ' ∉ entry.1) :
    collect result (log.map logLine) = .ok (grouped result log) := by
  induction log generalizing result with
  | nil => rfl
  | cons entry log ih =>
    have fields : unpack (split ' ' (logLine entry)) = .ok (entry.1,str entry.2) := by
      rw [logLine_spaced,split_first _ _ _ (spaceless entry (by simp)),
        split_absent _ _ (str_absent entry.2 ' ')]
      rfl
    have later := fun result => ih result fun other member => spaceless other (by simp [member])
    rw [List.map_cons,collect,grouped,List.foldl_cons,← grouped,← later]
    simp only [fields,int_str,bind,Except.bind]
    cases result.lookup entry.1 with
    | none => rfl
    | some counts => rfl

theorem grouped_lookup (result : Result) (log : List (Str × Nat)) (s : Str) :
    ((grouped result log).lookup s).getD [] =
      (result.lookup s).getD [] ++ (log.filter fun entry => entry.1 = s).map fun entry => (entry.2 : Int) := by
  induction log generalizing result with
  | nil => simp [grouped]
  | cons entry log ih =>
    rw [grouped,List.foldl_cons,← grouped,ih]
    by_cases here : entry.1 = s
    · subst here
      simp
    · simp [here,AList.lookup_insert_ne (Ne.symm here)]

theorem mem_grouped (result : Result) (log : List (Str × Nat)) (s : Str) :
    s ∈ grouped result log ↔ s ∈ result ∨ ∃ entry ∈ log, entry.1 = s := by
  induction log generalizing result with
  | nil => simp [grouped]
  | cons entry log ih =>
    rw [grouped,List.foldl_cons,← grouped,ih,AList.mem_insert,List.exists_mem_cons_iff,or_assoc,or_left_comm,
      eq_comm (a := s) (b := entry.1)]

theorem log_numbers (times : List Nat) (t : Nat) :
    ((((times.map clock).zipIdx 1).filter fun entry => entry.1 = clock t).map fun entry => (entry.2 : Int)) =
      (numbers times 1 t).map Int.ofNat := by
  rw [numbers,List.zipIdx_map,List.filter_map,List.map_map,List.map_map]
  simp only [Function.comp_def,Prod.map,clock_injective.eq_iff,id]
  rfl

theorem range_extremes (start count : Nat) :
    ((List.range' start (count + 1)).map Int.ofNat).max? = some ((start + count : Nat) : Int) ∧
      ((List.range' start (count + 1)).map Int.ofNat).min? = some (start : Int) := by
  rw [List.max?_eq_some_iff,List.min?_eq_some_iff]
  simp only [List.mem_map,List.mem_range'_1,Int.ofNat_eq_natCast]
  refine ⟨⟨⟨start + count,by omega,rfl⟩,?_⟩,⟨start,by omega,rfl⟩,?_⟩
  · intro b member
    obtain ⟨n,bounds,rfl⟩ := member
    omega
  · intro b member
    obtain ⟨n,bounds,rfl⟩ := member
    omega

theorem difference_log (times : List Nat) (ordered : times.Pairwise (· ≤ ·)) (t : Nat) (member : t ∈ times) :
    difference (grouped ∅ ((times.map clock).zipIdx 1)) (clock t) = .ok ((times.count t : Int) - 1) := by
  obtain ⟨start,consecutive⟩ := numbers_consecutive times 1 t ordered
  obtain ⟨count,counted⟩ : ∃ count, times.count t = count + 1 :=
    ⟨_,(Nat.sub_add_cancel (List.count_pos_iff.mpr member)).symm⟩
  have ⟨greatest,least⟩ := range_extremes start count
  have counts := grouped_lookup ∅ ((times.map clock).zipIdx 1) (clock t)
  rw [log_numbers,consecutive,counted,AList.lookup_empty,Option.getD_none,List.nil_append] at counts
  unfold difference
  cases found : (grouped ∅ ((times.map clock).zipIdx 1)).lookup (clock t) with
  | none => simp [found,List.range'_succ] at counts
  | some known =>
    rw [found,Option.getD_some] at counts
    simp only [counts,greatest,least,counted]
    congr 1
    omega

theorem differences_each (result : Result) (holds : Str → Int → Prop) (keys : List Str)
    (each : ∀ r ∈ keys, ∃ value, difference result r = .ok value ∧ holds r value) :
    ∃ printed, differences result keys = .ok printed ∧ printed.map Prod.fst = keys ∧
      ∀ entry ∈ printed, holds entry.1 entry.2 := by
  induction keys with
  | nil => exact ⟨[],rfl,rfl,by simp⟩
  | cons r keys ih =>
    obtain ⟨value,first,fits⟩ := each r (by simp)
    obtain ⟨printed,later,seconds,hold⟩ := ih fun other member => each other (by simp [member])
    refine ⟨(r,value) :: printed,?_,?_,?_⟩
    · simp only [differences,first,later,bind,Except.bind]
    · rw [List.map_cons,seconds]
    · intro entry member
      rcases List.mem_cons.mp member with rfl | inside
      · exact fits
      · exact hold entry inside

theorem clock_logged (times : List Nat) (second : Str) :
    (∃ entry ∈ (times.map clock).zipIdx 1, entry.1 = second) ↔ second ∈ times.map clock := by
  rw [← List.mem_map,List.zipIdx_map_fst]

theorem sorted_grouped (times : List Nat) (second : Str) :
    second ∈ sorted (grouped ∅ ((times.map clock).zipIdx 1)).keys ↔ second ∈ times.map clock := by
  rw [sorted,List.mem_mergeSort,← AList.mem_keys,mem_grouped,clock_logged]
  simp

theorem collect_times (times : List Nat) : collect ∅ ((readlines (logText ((times.map clock).zipIdx 1))).map stripped) =
    .ok (grouped ∅ ((times.map clock).zipIdx 1)) := by
  have entries (c : Char) (other : c.isDigit = false := by decide) (colon : c ≠ ':' := by decide) :
      ∀ entry ∈ (times.map clock).zipIdx 1, c ∉ entry.1 := by
    intro entry member
    obtain ⟨t,_,time⟩ := List.mem_map.mp ((clock_logged times entry.1).mp ⟨entry,member,rfl⟩)
    rw [← time]
    exact clock_absent t c other colon
  rw [readlines_log _ (entries '\n'),collect_log _ _ (entries ' ')]

theorem parsePaxos_log (times : List Nat) (ordered : times.Pairwise (· ≤ ·)) :
    ∃ output, parsePaxos (logText ((times.map clock).zipIdx 1)) = .ok output ∧
      (∀ second, second ∈ output.printed.map Prod.fst ↔ second ∈ times.map clock) ∧
      ∀ t value, (clock t,value) ∈ output.printed → value = (times.count t : Int) - 1 := by
  have differ : ∀ second ∈ sorted (grouped ∅ ((times.map clock).zipIdx 1)).keys, ∃ value,
      difference (grouped ∅ ((times.map clock).zipIdx 1)) second = .ok value ∧
        ∃ t, second = clock t ∧ value = (times.count t : Int) - 1 := by
    intro second member
    obtain ⟨t,logged,time⟩ := List.mem_map.mp ((sorted_grouped times second).mp member)
    exact ⟨_,time ▸ difference_log times ordered t logged,t,time.symm,rfl⟩
  obtain ⟨printed,computed,seconds,values⟩ := differences_each _ _ _ differ
  refine ⟨⟨printed,fileDat printed⟩,?_,fun second => ?_,?_⟩
  · simp only [parsePaxos,collect_times,computed,bind,Except.bind]
  · rw [seconds,sorted_grouped]
  · intro t value member
    obtain ⟨s,time,counted⟩ := values _ member
    rw [clock_injective time]
    exact counted

/-- Each second that occurs in the log is printed with the number of its messages, and the
numbers add up. -/
structure CountsAll (log : List (Str × Nat)) (printed : List (Str × Int)) : Prop where
  seconds : ∀ second, second ∈ printed.map Prod.fst ↔ second ∈ log.map Prod.fst
  each : ∀ second value, (second,value) ∈ printed → value = (log.countP fun entry => entry.1 = second : Nat)
  total : (printed.map Prod.snd).sum = log.length

theorem count_logged (times : List Nat) (t : Nat) :
    (((times.map clock).zipIdx 1).countP fun entry => entry.1 = clock t) = times.count t := by
  have entries := List.countP_map (p := fun time => decide (time = clock t)) (f := Prod.fst) (l := (times.map clock).zipIdx 1)
  rw [List.zipIdx_map_fst,List.countP_map] at entries
  have second : ((fun time => decide (time = clock t)) ∘ clock) = (· == t) := by
    funext time
    simp [clock_injective.eq_iff,Bool.beq_eq_decide_eq]
  exact entries.symm.trans (by rw [second,List.count])

/-- A series that has one less for each second counts all messages only where there are none. -/
theorem counts_all_iff (times : List Nat) (printed : List (Str × Int))
    (seconds : ∀ second, second ∈ printed.map Prod.fst ↔ second ∈ times.map clock)
    (values : ∀ t value, (clock t,value) ∈ printed → value = (times.count t : Int) - 1) :
    CountsAll ((times.map clock).zipIdx 1) printed ↔ times = [] := by
  constructor
  · intro counts
    refine List.eq_nil_iff_forall_not_mem.mpr fun t processed => ?_
    obtain ⟨entry,listed,second⟩ := List.mem_map.mp ((seconds (clock t)).mpr (List.mem_map_of_mem processed))
    obtain ⟨_,value⟩ := entry
    subst second
    have exact := counts.each _ _ listed
    rw [count_logged,values t value listed] at exact
    omega
  · rintro rfl
    have silent : printed = [] := by
      rw [← List.map_eq_nil_iff (f := Prod.fst)]
      exact List.eq_nil_iff_forall_not_mem.mpr fun second listed => absurd ((seconds second).mp listed) List.not_mem_nil
    rw [silent]
    exact ⟨fun second => Iff.rfl,fun second value listed => absurd listed List.not_mem_nil,rfl⟩

open Manager

/-- No message is processed: the first one read, if any, makes `handle_request` raise. -/
def Idle (domain : List Int) (reads : List (Str × Tick)) : Prop :=
  ∀ read ∈ reads.head?, ∃ error, handleRequest domain read.1 = .error error

theorem log_empty (now : Rat) (domain : List Int) (reads : List (Str × Tick)) :
    (mainloop domain (.start now) reads).perf.log = [] ↔ Idle domain reads := by
  cases reads with
  | nil => simp [mainloop,Idle,Loop.start]
  | cons read reads =>
    obtain ⟨message,tick⟩ := read
    have running : (Loop.start now).stopped = false := rfl
    simp only [mainloop,running,Idle,List.head?_cons,Option.mem_some_iff,forall_eq',Bool.false_eq_true,if_false]
    cases handles : handleRequest domain message with
    | error error =>
      rw [iterate_raises domain _ message tick error handles,mainloop_stopped _ _ _ rfl]
      simp [Loop.start]
    | ok post =>
      obtain ⟨perf,stopped⟩ := iterate_perf domain (.start now) message tick ⟨post,handles⟩
      obtain ⟨k,log⟩ := mainloop_log domain _ reads (stopped.trans running)
      rw [log,perf]
      simp

/-- The series counts every message only when there are none: a second in which messages
were processed is always written with one less than there were. -/
theorem series_counts_iff (now : Rat) (domain : List Int) (reads : List (Str × Tick)) (times : List Nat)
    (stamped : reads.map (fun read => read.2.stamp) = times.map clock) (ordered : times.Pairwise (· ≤ ·)) :
    ∃ output, parsePaxos (logText (mainloop domain (.start now) reads).perf.log) = .ok output ∧
      (CountsAll (mainloop domain (.start now) reads).perf.log output.printed ↔ Idle domain reads) := by
  obtain ⟨k,log⟩ := mainloop_log domain (.start now) reads rfl
  have log : (mainloop domain (.start now) reads).perf.log = ((times.take k).map clock).zipIdx 1 := by
    rw [log,List.map_take,stamped,← List.map_take]
    rfl
  obtain ⟨output,parsed,seconds,values⟩ := parsePaxos_log (times.take k) (ordered.sublist (List.take_sublist k times))
  refine ⟨output,by rw [log,parsed],?_⟩
  rw [← log_empty now,log,counts_all_iff _ _ seconds values,List.zipIdx_eq_nil_iff,List.map_eq_nil_iff]

-- Three messages, of which two are processed in the first second of the day and one in the next.
def severalReads : List (Str × Tick) := [(['r','#','3'],⟨2,clock 0⟩),(['r','#','4'],⟨3,clock 0⟩),(['r','#','3'],⟨4,clock 1⟩)]

def severalLog : List (Str × Nat) := [(clock 0,1),(clock 0,2),(clock 1,3)]

theorem several_logged : (mainloop [2] (.start 1) severalReads).perf.log = severalLog := rfl

theorem several_sorted : sorted (grouped ∅ severalLog).keys = [clock 0,clock 1] := by
  have keys : (grouped ∅ severalLog).keys = [clock 1,clock 0] := by decide +kernel
  have order : (!List.lex (clock 0) (clock 1) fun c d => decide (c.toNat < d.toNat)) = false := by decide +kernel
  rw [keys,sorted,List.mergeSort]
  simp [List.MergeSort.Internal.splitInTwo,order]

theorem several_printed : parsePaxos (logText severalLog) =
    .ok ⟨[(clock 0,1),(clock 1,0)],['0',' ','1','\n','1',' ','0','\n']⟩ := by
  have collected : collect ∅ ((readlines (logText severalLog)).map stripped) = .ok (grouped ∅ severalLog) := rfl
  simp only [parsePaxos,collected,several_sorted,bind,Except.bind]
  rfl

/-- Each of the two seconds is printed with one less than was processed in it. -/
theorem series_counts_several : ∃ output, parsePaxos (logText (mainloop [2] (.start 1) severalReads).perf.log) = .ok output ∧
    output.printed = [(clock 0,1),(clock 1,0)] ∧
    (CountsAll (mainloop [2] (.start 1) severalReads).perf.log output.printed ↔ Idle [2] severalReads) := by
  obtain ⟨output,parsed,counted⟩ := series_counts_iff 1 [2] severalReads [0,0,1] rfl (by decide)
  have printed := parsed
  rw [several_logged,several_printed] at printed
  exact ⟨output,parsed,congrArg Output.printed (Except.ok.inj printed).symm,counted⟩

-- One message, processed in the first second of the day.
def loneRead : List (Str × Tick) := [(['r','#','3'],⟨2,clock 0⟩)]

/-- Its second is written with 0. -/
theorem lone_consensus_lost : (mainloop [2] (.start 1) loneRead).perf.log = [(clock 0,1)] ∧
    parsePaxos (logText [(clock 0,1)]) = .ok ⟨[(clock 0,0)],['0',' ','0','\n']⟩ ∧
      ¬CountsAll [(clock 0,1)] [(clock 0,0)] := by
  refine ⟨rfl,?_,?_⟩
  · have collected : collect ∅ ((readlines (logText [(clock 0,1)])).map stripped) = .ok (grouped ∅ [(clock 0,1)]) := rfl
    have keys : sorted (grouped ∅ [(clock 0,1)]).keys = [clock 0] := List.mergeSort_singleton _
    simp only [parsePaxos,collected,keys,bind,Except.bind]
    rfl
  · intro counts
    exact absurd counts.total (by decide)

end NfvConsensus.ParsePaxos
