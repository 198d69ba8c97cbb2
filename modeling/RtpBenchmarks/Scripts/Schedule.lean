import RtpBenchmarks.Foundation.DecimalText
import RtpBenchmarks.Foundation.Stream

set_option autoImplicit false

/-!
# Benchmark scripts: the schedule (`benchmark.pl`)

Each script of a benchmark walks its own nested loops over programs, thread counts, frame
rates and rounds.  A script is what it does when all programs succeed, in order; one that
dies stops in the middle.

`recv_generic`, which captures the stream with netcat, is handed the number of rounds and
does not use it, and it counts the threads down.
-/

namespace RtpBenchmarks.Scripts

open RtpBenchmarks.Foundation

/-! ## The code -/

/-- The options both scripts of a benchmark are started with, and the programs (`$exec`,
split) that each is given. -/
structure Benchmark where
  lib : List Char
  file : List Char
  saddr : List Char
  raddr : List Char
  port : Nat
  iter : Nat
  threads : Nat
  genRecv : Bool
  sendExecs : List (List Char)
  recvExecs : List (List Char)
  format : List Char
  srtp : Bool
  fpsVals : List (List Char)
  deriving DecidableEq, Repr

/-- A run of a benchmark. -/
structure BenchmarkRun where
  thread : Nat
  fps : List Char
  round : Nat
  deriving DecidableEq, Repr

/-- A program, its arguments and the file its messages are appended to. -/
structure Command where
  program : List Char
  args : List (List Char)
  log : List Char := []
  deriving DecidableEq, Repr

/-- What a script does: it removes or extends a file, sends a message, waits for one, or
has a program run. -/
inductive Action where
  | unlink (file : List Char)
  | append (file : List Char)
  | send (message : String) (run : BenchmarkRun)
  | recv (run : BenchmarkRun)
  | system (command : Command) (run : BenchmarkRun)
  deriving DecidableEq, Repr

/-- `$logname` of the benchmarks. -/
def logname (role : String) (b : Benchmark) (thread : Nat) (fps : List Char) : List Char :=
  role.toList ++ "_".toList ++ b.format ++ (if b.srtp then "_SRTP" else "_RTP").toList ++
    "_".toList ++ decimal thread ++ "threads_".toList ++ fps ++ "fps_".toList ++
    decimal b.iter ++ "rounds".toList

/-- `$result_file`. -/
def resultFile (role : String) (b : Benchmark) (thread : Nat) (fps : List Char) : List Char :=
  b.lib ++ "/results/".toList ++ logname role b thread fps

/-- `$srtp` in a command line. -/
def srtpText (srtp : Bool) : List Char :=
  if srtp then "1".toList else "0".toList

/-- `(1 .. $n)`. -/
def oneTo (n : Nat) : List Nat :=
  List.range' 1 n

/-- The loops of both sending scripts. -/
def sendLoops (b : Benchmark) : List Action :=
  b.sendExecs.flatMap fun exec =>
    (oneTo b.threads).flatMap fun thread =>
      b.fpsVals.flatMap fun fps =>
        let resultFile := resultFile "send" b thread fps
        .unlink resultFile :: (oneTo b.iter).flatMap fun round =>
          let run : BenchmarkRun := { thread, fps, round }
          let command : Command :=
            { program := "./".toList ++ b.lib ++ "/".toList ++ exec
              args := [b.file, resultFile, b.saddr, decimal b.port, b.raddr, decimal b.port,
                decimal thread, fps, b.format, srtpText b.srtp]
              log := resultFile }
          [.recv run, .system command run] ++ if b.genRecv then [.send "end" run] else []

/-- `send_benchmark`. -/
def sendBenchmark (b : Benchmark) : List Action :=
  sendLoops b

/-- `vpcc_send_benchmark`. -/
def vpccSendBenchmark (b : Benchmark) : List Action :=
  sendLoops b

/-- The loops of both receiving scripts.  They run the same program whatever the name in
`$exec` is. -/
def recvLoops (receiver : String) (b : Benchmark) : List Action :=
  b.recvExecs.flatMap fun _ =>
    (oneTo b.threads).flatMap fun thread =>
      b.fpsVals.flatMap fun fps =>
        let resultFile := resultFile "recv" b thread fps
        .unlink resultFile :: (oneTo b.iter).flatMap fun round =>
          let run : BenchmarkRun := { thread, fps, round }
          let command : Command :=
            { program := "./".toList ++ b.lib ++ "/".toList ++ receiver.toList
              args := [resultFile, b.raddr, decimal b.port, b.saddr, decimal b.port,
                decimal thread, b.format, srtpText b.srtp]
              log := resultFile }
          [.send "start" run, .system command run]

/-- `recv_benchmark`. -/
def recvBenchmark (b : Benchmark) : List Action :=
  recvLoops "receiver" b

/-- `vpcc_recv_benchmark`. -/
def vpccRecvBenchmark (b : Benchmark) : List Action :=
  recvLoops "vpcc_receiver" b

/-- `$ports`. -/
def netcatPorts (threads : Nat) : List (List Char) :=
  (List.range threads).map fun k => decimal (8888 + k * 2)

/-- The loop of `recv_generic`, with `$threads` at its current value. -/
def recvGenericLoop (b : Benchmark) (ports : List (List Char)) : Nat → List Action
  | 0 => []
  | threads + 1 =>
    (b.fpsVals.flatMap fun fps =>
      let logname := "recv_results_".toList ++ decimal (threads + 1) ++ "threads_".toList ++
        fps ++ "fps".toList
      let run : BenchmarkRun := { thread := threads + 1, fps, round := 1 }
      let parallel : Command :=
        { program := "parallel".toList
          args := ["--files".toList, "nc".toList, "-kluvw".toList, "0".toList, b.saddr,
            ":::".toList] ++ ports }
      [.system parallel run, .send "start" run, .recv run,
        .system { program := "killall".toList, args := ["nc".toList] } run,
        .append (b.lib ++ "/results/".toList ++ logname)])
    ++ recvGenericLoop b ports threads

/-- `recv_generic`. -/
def recvGeneric (b : Benchmark) : List Action :=
  recvGenericLoop b (netcatPorts b.threads) b.threads

/-! ## What the other side sees -/

/-- The runs for which a program is started. -/
def executed (script : List Action) : List BenchmarkRun :=
  script.filterMap fun
    | .system _ run => some run
    | _ => none

/-- The runs for which `message` is sent. -/
def sent (message : String) (script : List Action) : List BenchmarkRun :=
  script.filterMap fun
    | .send m run => if m = message then some run else none
    | _ => none

/-- The runs in which the script waits for a message. -/
def awaited (script : List Action) : List BenchmarkRun :=
  script.filterMap fun
    | .recv run => some run
    | _ => none

/-- The receiving script announces the runs that the sending script waits for and
executes, in the same order. -/
def WalkTogether (sender receiver : List Action) : Prop :=
  sent "start" receiver = executed sender ∧ awaited sender = executed sender

/-! ## The schedules -/

/-- The runs of one program: thread counts and rounds upwards. -/
def schedule (b : Benchmark) : List BenchmarkRun :=
  (oneTo b.threads).flatMap fun thread =>
    b.fpsVals.flatMap fun fps =>
      (oneTo b.iter).map fun round => { thread, fps, round }

/-- The runs of `recv_generic`: thread counts downwards, a single round. -/
def netcatSchedule (fpsVals : List (List Char)) : Nat → List BenchmarkRun
  | 0 => []
  | threads + 1 =>
    (fpsVals.map fun fps => { thread := threads + 1, fps, round := 1 }) ++
      netcatSchedule fpsVals threads

section Schedules

variable (b : Benchmark)

theorem flatMap_const {α β : Type} (xs : List α) (ys : List β) :
    (xs.flatMap fun _ => ys) = copies ys xs.length := by
  induction xs with
  | nil => rfl
  | cons x xs ih => rw [List.flatMap_cons, ih, List.length_cons, copies_succ]

theorem executed_sendLoops :
    executed (sendLoops b) = copies (schedule b) b.sendExecs.length := by
  simp only [executed, sendLoops, schedule, ← flatMap_const, List.map_eq_flatMap]
  cases b.genRecv <;> simp [List.filterMap_flatMap]

theorem awaited_sendLoops :
    awaited (sendLoops b) = copies (schedule b) b.sendExecs.length := by
  simp only [awaited, sendLoops, schedule, ← flatMap_const, List.map_eq_flatMap]
  cases b.genRecv <;> simp [List.filterMap_flatMap]

theorem ended_sendLoops (h : b.genRecv = true) :
    sent "end" (sendLoops b) = copies (schedule b) b.sendExecs.length := by
  simp only [sent, sendLoops, schedule, ← flatMap_const, List.map_eq_flatMap]
  simp [h, List.filterMap_flatMap]

theorem announced_recvLoops (receiver : String) :
    sent "start" (recvLoops receiver b) = copies (schedule b) b.recvExecs.length := by
  simp only [sent, recvLoops, schedule, ← flatMap_const, List.map_eq_flatMap]
  simp [List.filterMap_flatMap]

theorem announced_recvGeneric :
    sent "start" (recvGeneric b) = netcatSchedule b.fpsVals b.threads := by
  unfold recvGeneric
  generalize netcatPorts b.threads = ports
  induction b.threads with
  | zero => rfl
  | succ threads ih =>
    rw [recvGenericLoop, netcatSchedule, ← ih, List.map_eq_flatMap]
    simp [sent, List.filterMap_flatMap]

theorem awaited_recvGeneric :
    awaited (recvGeneric b) = netcatSchedule b.fpsVals b.threads := by
  unfold recvGeneric
  generalize netcatPorts b.threads = ports
  induction b.threads with
  | zero => rfl
  | succ threads ih =>
    rw [recvGenericLoop, netcatSchedule, ← ih, List.map_eq_flatMap]
    simp [awaited, List.filterMap_flatMap]

theorem length_schedule : (schedule b).length = b.threads * b.fpsVals.length * b.iter := by
  simp [schedule, oneTo, List.length_flatMap, Nat.mul_assoc]

theorem length_netcatSchedule (fpsVals : List (List Char)) (threads : Nat) :
    (netcatSchedule fpsVals threads).length = threads * fpsVals.length := by
  induction threads with
  | zero => simp [netcatSchedule]
  | succ threads ih =>
    rw [netcatSchedule, List.length_append, ih, List.length_map, Nat.succ_mul, Nat.add_comm]

/-- The receiving scripts other than `recv_generic` announce what their senders execute,
when both are given the same number of programs. -/
theorem walkTogether_loops (h : b.sendExecs.length = b.recvExecs.length) (receiver : String) :
    WalkTogether (sendLoops b) (recvLoops receiver b) := by
  refine ⟨?_, ?_⟩
  · rw [announced_recvLoops, executed_sendLoops, h]
  · rw [awaited_sendLoops, executed_sendLoops]

/-- Counting up with rounds and counting down without is the same for one thread and one
round, or when there is nothing to run. -/
theorem copies_schedule_eq_iff (k : Nat) :
    netcatSchedule b.fpsVals b.threads = copies (schedule b) k ↔
      b.threads = 0 ∨ b.fpsVals = [] ∨ k = 1 ∧ b.iter = 1 ∧ b.threads = 1 := by
  constructor
  · intro heq
    rcases Nat.eq_zero_or_pos b.threads with hthreads | hthreads
    · exact .inl hthreads
    by_cases hfps : b.fpsVals = []
    · exact .inr (.inl hfps)
    have hfpsPos := List.length_pos_of_ne_nil hfps
    -- as many runs on both sides: one program and one round
    have hlength := congrArg List.length heq
    rw [length_netcatSchedule, length_copies, length_schedule] at hlength
    have hone : k * b.iter = 1 := by
      have hpos : 0 < b.threads * b.fpsVals.length := Nat.mul_pos hthreads hfpsPos
      refine Nat.eq_of_mul_eq_mul_left hpos ?_
      rw [Nat.mul_one]
      calc b.threads * b.fpsVals.length * (k * b.iter)
          = k * (b.threads * b.fpsVals.length * b.iter) := Nat.mul_left_comm _ _ _
        _ = b.threads * b.fpsVals.length := hlength.symm
    have hk : k = 1 := Nat.eq_one_of_mul_eq_one_right hone
    have hiter : b.iter = 1 := Nat.eq_one_of_mul_eq_one_left hone
    subst hk
    -- the first run: of the last thread count here, of the first there
    obtain ⟨threads, hsucc⟩ : ∃ threads, b.threads = threads + 1 :=
      ⟨b.threads - 1, (Nat.sub_add_cancel hthreads).symm⟩
    obtain ⟨fps, rest, hcons⟩ := List.exists_cons_of_ne_nil hfps
    have hdown : (netcatSchedule b.fpsVals b.threads).head? = some ⟨threads + 1, fps, 1⟩ := by
      rw [hsucc, hcons]
      rfl
    have hup : (copies (schedule b) 1).head? = some ⟨1, fps, 1⟩ := by
      simp [copies, schedule, oneTo, hiter, hsucc, hcons, List.range'_succ]
    rw [heq, hup] at hdown
    have hthread : 1 = threads + 1 := congrArg BenchmarkRun.thread (Option.some.inj hdown)
    exact .inr (.inr ⟨rfl, hiter, hsucc.trans hthread.symm⟩)
  · rintro (hthreads | hfps | ⟨rfl, hiter, hthreads⟩)
    · simp [copies, schedule, oneTo, netcatSchedule, hthreads]
    · have hnone : netcatSchedule [] b.threads = [] :=
        List.eq_nil_of_length_eq_zero (length_netcatSchedule [] b.threads)
      simp [copies, schedule, hfps, hnone]
    · simp [copies, schedule, oneTo, netcatSchedule, hiter, hthreads, List.map_eq_flatMap]

end Schedules

/-- The scripts of a benchmark walk the same schedule, in each of its three forms; with
netcat, what one side sends at the end of a run is what the other waits for. -/
def SchedulesAgree (b : Benchmark) : Prop :=
  WalkTogether (sendBenchmark b) (recvBenchmark b) ∧
    WalkTogether (vpccSendBenchmark b) (vpccRecvBenchmark b) ∧
    WalkTogether (sendBenchmark { b with genRecv := true }) (recvGeneric b) ∧
    sent "end" (sendBenchmark { b with genRecv := true }) = awaited (recvGeneric b)

/-- The scripts walk the same schedule if and only if there is nothing to run, or one
program on each side, one thread and one round. -/
theorem schedulesAgree_iff (b : Benchmark) :
    SchedulesAgree b ↔ b.threads = 0 ∨ b.fpsVals = [] ∨
      b.sendExecs.length = 1 ∧ b.recvExecs.length = 1 ∧ b.iter = 1 ∧ b.threads = 1 := by
  have hnetcat : WalkTogether (sendBenchmark { b with genRecv := true }) (recvGeneric b) ↔
      netcatSchedule b.fpsVals b.threads = copies (schedule b) b.sendExecs.length := by
    unfold WalkTogether sendBenchmark
    rw [announced_recvGeneric, executed_sendLoops, awaited_sendLoops]
    exact and_iff_left rfl
  have hends : sent "end" (sendBenchmark { b with genRecv := true }) = awaited (recvGeneric b) ↔
      netcatSchedule b.fpsVals b.threads = copies (schedule b) b.sendExecs.length := by
    unfold sendBenchmark
    rw [ended_sendLoops _ rfl, awaited_recvGeneric]
    exact eq_comm
  have hloops (receiver : String) : WalkTogether (sendLoops b) (recvLoops receiver b) ↔
      copies (schedule b) b.recvExecs.length = copies (schedule b) b.sendExecs.length := by
    unfold WalkTogether
    rw [announced_recvLoops, executed_sendLoops, awaited_sendLoops]
    exact and_iff_left rfl
  unfold SchedulesAgree vpccSendBenchmark vpccRecvBenchmark recvBenchmark
  rw [show sendBenchmark b = sendLoops b from rfl, hnetcat, hends, hloops, hloops, and_self,
    ← and_assoc, and_self, copies_schedule_eq_iff]
  have hempty : (b.threads = 0 ∨ b.fpsVals = []) → schedule b = [] := by
    rintro (h | h) <;> simp [schedule, oneTo, h]
  constructor
  · rintro ⟨hcopies, h | h | ⟨hsend, hiter, hthreads⟩⟩
    · exact .inl h
    · exact .inr (.inl h)
    · by_cases hfps : b.fpsVals = []
      · exact .inr (.inl hfps)
      have hpos := List.length_pos_of_ne_nil hfps
      have hlength := congrArg List.length hcopies
      simp only [length_copies, length_schedule, hsend, hiter, hthreads, Nat.one_mul,
        Nat.mul_one] at hlength
      have hrecv : b.recvExecs.length = 1 :=
        Nat.eq_of_mul_eq_mul_right hpos (hlength.trans (Nat.one_mul _).symm)
      exact .inr (.inr ⟨hsend, hrecv, hiter, hthreads⟩)
  · rintro (h | h | ⟨hsend, hrecv, hiter, hthreads⟩)
    · exact ⟨by simp [hempty (.inl h), copies], .inl h⟩
    · exact ⟨by simp [hempty (.inr h), copies], .inr (.inl h)⟩
    · exact ⟨by rw [hsend, hrecv], .inr (.inr ⟨hsend, hiter, hthreads⟩)⟩

/-- A benchmark of two rounds. -/
def twoRounds : Benchmark where
  lib := "uvgrtp".toList
  file := "test.hevc".toList
  saddr := "127.0.0.1".toList
  raddr := "127.0.0.1".toList
  port := 19500
  iter := 2
  threads := 1
  genRecv := true
  sendExecs := ["sender".toList]
  recvExecs := ["receiver".toList]
  format := "hevc".toList
  srtp := false
  fpsVals := ["30".toList]

/-- With netcat, the sending script executes both rounds and one is announced. -/
theorem schedules_disagree :
    executed (sendBenchmark twoRounds) = [⟨1, "30".toList, 1⟩, ⟨1, "30".toList, 2⟩] ∧
      sent "start" (recvGeneric twoRounds) = [⟨1, "30".toList, 1⟩] ∧
      ¬ SchedulesAgree twoRounds := by
  refine ⟨by decide, by decide, ?_⟩
  rintro ⟨-, -, ⟨hannounced, -⟩, -⟩
  exact absurd hannounced (by decide)

end RtpBenchmarks.Scripts
