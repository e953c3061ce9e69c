import MsaBroker.Broker
import MsaBroker.Lib.Machine

/-! `tick_stat` of `main.c`: the periodic report. Main reads and then resets every
counter, in two atomic operations, while RECV and SEND go on incrementing. What
an increment between the two adds is reset unseen, so the report loses nothing
exactly when none comes at that moment. -/
namespace MsaBroker

/-- `MAIN_CTX->stat[a]` and `MAIN_CTX->reason[b]`. -/
inductive Counter where
  | stat (a : StatEnum)
  | reason (b : ZmsgResp)
  deriving DecidableEq

namespace TickStat

/-- The order in which `tick_stat` goes through the counters. -/
def order : List Counter :=
  [StatEnum.att, .succ, .fail].map .stat ++ ZmsgResp.all.map .reason

/-- Where the main thread is in `tick_stat`. -/
inductive Pc where
  | idle
  /-- Before `STAT_GET` of this counter. -/
  | get (c : Counter) (rest : List Counter)
  /-- Before `STAT_UNSET` of this counter, which held `read` increments. -/
  | unset (c : Counter) (read : Nat) (rest : List Counter)

/-- The main thread goes on with the next counter. -/
def Pc.next : List Counter → Pc
  | [] => .idle
  | c :: rest => .get c rest

/-- The counters, as the increments each has had since it was last set, and the
main thread. -/
structure State where
  count : Counter → Nat
  pc : Pc

/-- What `zmq_atomic_counter_value` returns after this many increments: a counter
has the width of an `int`, and wraps. -/
def value (count : Nat) : Int32 := Int32.ofNat count

inductive Act where
  /-- RECV or SEND does `STAT_INC`. -/
  | inc (c : Counter)
  /-- The timer of the main thread fires. -/
  | tick
  /-- The main thread does its next `STAT_GET` or `STAT_UNSET`. -/
  | main

inductive Obs where
  | inc (c : Counter)
  /-- A tick prints this value for this counter. -/
  | print (c : Counter) (value : Int32)
  deriving DecidableEq

/-- One atomic operation. -/
def step (s : State) : Act → Option (State × List Obs)
  | .inc c => some ({ s with count := Function.update s.count c (s.count c + 1) }, [.inc c])
  | .tick =>
    match s.pc with
    | .idle => some ({ s with pc := .next order }, [])
    | .get .. | .unset .. => none
  | .main =>
    match s.pc with
    | .idle => none
    | .get c rest => some ({ s with pc := .unset c (s.count c) rest }, [.print c (value (s.count c))])
    | .unset c _ rest => some ({ count := Function.update s.count c 0, pc := .next rest }, [])

def machine : Machine State Act Obs := ⟨⟨fun _ => 0, .idle⟩, step⟩

/-! ## What is conserved -/

/-- The increments of a counter so far. -/
def incs (c : Counter) (trace : List Obs) : Nat := trace.count (.inc c)

/-- The sum of what has been printed for a counter. -/
def printed (c : Counter) (trace : List Obs) : Int :=
  (trace.map fun
    | .print d v => if d = c then v.toInt else 0
    | .inc _ => 0).sum

/-- A tick is between its read and its reset of the counter, and has read this
many increments. -/
def Pc.window (c : Counter) : Pc → Option Nat
  | .unset d read _ => if d = c then some read else none
  | .idle | .get .. => none

@[simp] theorem Pc.window_idle (c : Counter) : Pc.idle.window c = none := rfl

@[simp] theorem Pc.window_get (c d : Counter) (rest : List Counter) : (Pc.get d rest).window c = none := rfl

@[simp] theorem Pc.window_unset (c d : Counter) (read : Nat) (rest : List Counter) :
    (Pc.unset d read rest).window c = if d = c then some read else none := rfl

@[simp] theorem Pc.window_next (c : Counter) (rest : List Counter) : (Pc.next rest).window c = none := by
  cases rest <;> rfl

/-- Printed and content make up the increments, except within a tick's window. -/
def Conserved (c : Counter) (trace : List Obs) (s : State) : Prop :=
  s.pc.window c = none → printed c trace + (value (s.count c)).toInt = incs c trace

/-- The step neither resets increments made since the read, nor takes the counter
past the largest `int`. -/
def Keeps (c : Counter) (s : State) : Act → Prop
  | .inc d => d = c → s.pc.window c = none → (value (s.count c)).toInt < 2147483647
  | .tick => True
  | .main => ∀ read, s.pc.window c = some read → s.count c = read

variable {c : Counter} {s t : State} {a : Act} {acts : List Act} {trace out : List Obs} {n : Nat}

/-- The balance also within a window: what was read is printed, the rest still to
be seen. -/
def Accounted (c : Counter) (trace : List Obs) (s : State) : Prop :=
  match s.pc.window c with
  | none => printed c trace + (value (s.count c)).toInt = incs c trace
  | some read => printed c trace + (s.count c - read) = incs c trace

theorem value_succ : (value (n + 1)).toInt = (value n).toInt + 1 ↔ (value n).toInt < 2147483647 := by
  simp only [value, Int32.toInt_ofNat', Int32.size, Int.bmod_def]
  omega

theorem incs_append (tr₁ tr₂ : List Obs) : incs c (tr₁ ++ tr₂) = incs c tr₁ + incs c tr₂ :=
  List.count_append

theorem printed_append (tr₁ tr₂ : List Obs) : printed c (tr₁ ++ tr₂) = printed c tr₁ + printed c tr₂ := by
  simp [printed]

@[simp] theorem incs_nil : incs c [] = 0 := rfl

@[simp] theorem incs_inc (d : Counter) : incs c [.inc d] = if d = c then 1 else 0 := by
  simp [incs, List.count_singleton]

@[simp] theorem incs_print (d : Counter) (v : Int32) : incs c [.print d v] = 0 := rfl

@[simp] theorem printed_nil : printed c [] = 0 := rfl

@[simp] theorem printed_inc (d : Counter) : printed c [.inc d] = 0 := rfl

@[simp] theorem printed_print (d : Counter) (v : Int32) :
    printed c [.print d v] = if d = c then v.toInt else 0 := by
  simp [printed]

/-- One operation keeps the balance exactly when nothing is lost by it. -/
theorem accounted_iff (step : machine.step s a = some (t, out)) (accounted : Accounted c trace s) :
    Accounted c (trace ++ out) t ↔ Keeps c s a := by
  rw [Accounted, incs_append, printed_append]
  rw [Accounted] at accounted
  cases a with
  | inc d =>
    cases step
    by_cases mine : d = c
    · subst mine
      cases window : s.pc.window d with
      | none =>
        simp only [window] at accounted
        have succ := @value_succ (s.count d)
        simp [Keeps, window]
        omega
      | some read =>
        simp only [window] at accounted
        simp [Keeps, window]
        omega
    · simpa [Keeps, mine, Ne.symm mine] using accounted
  | tick =>
    simp only [machine, TickStat.step] at step
    split at step
    · rename_i idle
      cases step
      simpa [Keeps, idle] using accounted
    · cases step
    · cases step
  | main =>
    simp only [machine, TickStat.step] at step
    split at step
    · cases step
    · rename_i d rest get
      cases step
      by_cases mine : d = c
      · subst mine
        simpa [Keeps, get] using accounted
      · simpa [Keeps, get, mine] using accounted
    · rename_i d read rest unset
      cases step
      by_cases mine : d = c
      · subst mine
        simp only [unset, Pc.window_unset, ↓reduceIte] at accounted
        have zero : (value 0).toInt = 0 := rfl
        simp [Keeps, unset, zero]
        omega
      · simpa [Keeps, unset, mine, Ne.symm mine] using accounted

/-- Within a window nothing is lost yet. -/
theorem keeps_of_window (step : machine.step s a = some (t, out)) (open_ : t.pc.window c ≠ none) :
    Keeps c s a := by
  cases a with
  | inc d =>
    cases step
    intro _ closed
    exact absurd closed open_
  | tick => trivial
  | main =>
    simp only [machine, TickStat.step] at step
    split at step
    · cases step
    · rename_i d rest get
      intro read window
      simp [get] at window
    · cases step
      simp at open_

/-- Between windows the two balances are the same one, and within a window the
balance carries over from before it. -/
theorem always_accounted :
    machine.Always (Conserved c) acts ↔ machine.Always (Accounted c) acts := by
  apply Machine.always_closed_iff (fun s => s.pc.window c = none)
    (fun tr s => printed c tr + (value (s.count c)).toInt = incs c tr) (Accounted c)
  · rfl
  · intro tr s closed
    rw [Accounted, closed]
  · intro acts tr s a t out _ accounted step open_
    exact (accounted_iff step accounted).mpr (keeps_of_window step open_)

/-- **When the periodic report loses nothing.** For every counter and every
interleaving of the atomic operations of RECV, SEND and main: at every moment at
which no tick is between its read and its reset of the counter, printed and
content make up the increments, if and only if every reset finds the counter as
its tick read it, and the counter never passes the largest `int`. -/
theorem conserved_iff (c : Counter) (acts : List Act) :
    machine.Always (Conserved c) acts ↔ machine.EveryStep (Keeps c) acts := by
  rw [always_accounted]
  apply Machine.always_iff_everyStep (fun _ _ => True) (Accounted c) (Keeps c) (fun _ => True) (fun _ _ => trivial)
    trivial
  · rfl
  · intros
    trivial
  · intro tr s a t out _ accounted _ step
    exact accounted_iff step accounted

/-- RECV counts an attempt after the tick has read that counter and before it
resets it. -/
theorem increment_lost : ¬ ∀ (c : Counter) (acts : List Act), machine.Always (Conserved c) acts := by
  intro conserved
  have run : machine.Runs [.tick, .main, .inc (.stat .att), .main] _ _ := rfl
  have sum := conserved (.stat .att) _ _ [] (List.append_nil _).symm _ _ run rfl
  exact absurd sum (by decide)

end TickStat

end MsaBroker
