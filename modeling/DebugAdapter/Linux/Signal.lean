/-!
# Signals

The signals of the operating system with their numbers and names, and the two classes of them that
a debugger treats specially.
-/

namespace DebugAdapter.Linux

/-- A signal. -/
inductive Signal where
  | hup | int | quit | ill | trap | abrt | bus | fpe | kill | usr1 | segv | usr2 | pipe | alrm
  | term | stkflt | chld | cont | stop | tstp | ttin | ttou | urg | xcpu | xfsz | vtalrm | prof
  | winch | io | pwr | sys
  deriving Repr, DecidableEq

namespace Signal

/-- Every signal, in the order of their numbers. -/
def all : List Signal :=
  [hup, int, quit, ill, trap, abrt, bus, fpe, kill, usr1, segv, usr2, pipe, alrm, term, stkflt,
    chld, cont, stop, tstp, ttin, ttou, urg, xcpu, xfsz, vtalrm, prof, winch, io, pwr, sys]

theorem mem_all (s : Signal) : s ∈ all := by
  cases s <;> decide

/-- The number of a signal. -/
def number : Signal → Nat
  | hup => 1
  | int => 2
  | quit => 3
  | ill => 4
  | trap => 5
  | abrt => 6
  | bus => 7
  | fpe => 8
  | kill => 9
  | usr1 => 10
  | segv => 11
  | usr2 => 12
  | pipe => 13
  | alrm => 14
  | term => 15
  | stkflt => 16
  | chld => 17
  | cont => 18
  | stop => 19
  | tstp => 20
  | ttin => 21
  | ttou => 22
  | urg => 23
  | xcpu => 24
  | xfsz => 25
  | vtalrm => 26
  | prof => 27
  | winch => 28
  | io => 29
  | pwr => 30
  | sys => 31

/-- The name of a signal. -/
def name : Signal → String
  | hup => "SIGHUP"
  | int => "SIGINT"
  | quit => "SIGQUIT"
  | ill => "SIGILL"
  | trap => "SIGTRAP"
  | abrt => "SIGABRT"
  | bus => "SIGBUS"
  | fpe => "SIGFPE"
  | kill => "SIGKILL"
  | usr1 => "SIGUSR1"
  | segv => "SIGSEGV"
  | usr2 => "SIGUSR2"
  | pipe => "SIGPIPE"
  | alrm => "SIGALRM"
  | term => "SIGTERM"
  | stkflt => "SIGSTKFLT"
  | chld => "SIGCHLD"
  | cont => "SIGCONT"
  | stop => "SIGSTOP"
  | tstp => "SIGTSTP"
  | ttin => "SIGTTIN"
  | ttou => "SIGTTOU"
  | urg => "SIGURG"
  | xcpu => "SIGXCPU"
  | xfsz => "SIGXFSZ"
  | vtalrm => "SIGVTALRM"
  | prof => "SIGPROF"
  | winch => "SIGWINCH"
  | io => "SIGIO"
  | pwr => "SIGPWR"
  | sys => "SIGSYS"

/-- The signal with a number. -/
def ofNumber? (n : Nat) : Option Signal :=
  all.find? (·.number == n)

/-- The signal with a name. -/
def ofName? (s : String) : Option Signal :=
  all.find? (·.name == s)

@[simp] theorem ofNumber?_number (s : Signal) : ofNumber? s.number = some s := by
  cases s <;> decide

/-- The signal has no meaning for debugging: it is handed to the process at once. -/
def isQuiet : Signal → Bool
  | alrm | urg | chld | io | vtalrm | prof => true
  | _ => false

/-- The signal says that the process executed something it must not. -/
def isFault : Signal → Bool
  | segv | bus | ill | fpe => true
  | _ => false

end Signal

end DebugAdapter.Linux
