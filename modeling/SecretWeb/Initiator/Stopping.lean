import Mathlib.Algebra.Order.Ring.Int
import SecretWeb.Machine.Runs
import SecretWeb.Python.Text

/-! # Stopping the server

`stop_server` reads a pid, asks whether it is alive, sends it SIGTERM, waits, sends it SIGKILL
and removes the pidfile.  What the pid names may change between any two of these steps. -/

namespace SecretWeb.Initiator

open SecretWeb.Data SecretWeb.Machine

/-! ## Signals -/

/-- What a pid names: a process, or a process group if it is not positive. -/
inductive Named where
  | gone
  | ours
  | foreign
deriving DecidableEq

inductive Signal where
  | sigterm
  | sigkill
deriving DecidableEq

inductive KillError where
  | processLookupError
  | permissionError
  | overflowError
deriving DecidableEq

/-- The pids that fit `pid_t`. -/
def PidFits (pid : Int) : Prop := -2 ^ 31 ≤ pid ∧ pid < 2 ^ 31

instance (pid : Int) : Decidable (PidFits pid) := inferInstanceAs (Decidable (_ ∧ _))

/-- `os.kill`, with a signal or with 0. -/
def kill (named : Named) (pid : Int) : Except KillError Unit :=
  if ¬PidFits pid then .error .overflowError
  -- 0 is the group of the caller, which is always there
  else if pid = 0 then .ok ()
  else
    match named with
    | .gone => .error .processLookupError
    | .ours => .ok ()
    | .foreign => .error .permissionError

def pidIsAlive (named : Named) (pid : Int) : Except KillError Bool :=
  match kill named pid with
  | .ok () => .ok true
  | .error .processLookupError => .ok false
  -- `EPERM` comes from a process of somebody else
  | .error .permissionError => .ok true
  | .error error => .error error

/-! ## The steps -/

inductive StopPhase where
  | reading
  | probing (pid : Int)
  | terminating (pid : Int)
  | timing (pid : Int)
  | waiting (pid deadline : Int)
  | polling (pid deadline : Int)
  | sleeping (pid deadline : Int)
  | probingAgain (pid : Int)
  | killing (pid : Int)
  | unlinking (stopped : Bool)
  | returned (stopped : Bool)
  | raised (error : KillError)
deriving DecidableEq

/-- `clock` counts milliseconds. -/
structure Stopping where
  phase : StopPhase
  named : Named
  pidfile : Option Bytes
  clock : Int
deriving DecidableEq

/-- `proceed` is the next step of `stop_server`; the rest may happen at any time. -/
inductive StopEvent where
  | proceed
  | exit
  | reuse (owned : Bool)
  | pass (milliseconds : Nat)
  | remove
deriving DecidableEq

/-- What a step has done that others can see. -/
inductive Call where
  | probed (pid : Int) (alive : Bool)
  | signalled (signal : Signal) (pid : Int)
deriving DecidableEq

def SLEEP_MILLISECONDS : Nat := 100

section Steps

-- `f.read()`, unless the bytes are no text, and `int(text)`
variable (readText : Bytes → Option String) (intOf : String → Option Int) (timeout : Int)

/-- `int(f.read().strip())`, where both exceptions are a `ValueError`. -/
def readPid (content : Bytes) : Option Int :=
  (readText content).bind fun text => intOf (String.ofList (Python.strip text.toList))

/-- `if _pid_is_alive(pid)`. -/
def Stopping.probe (state : Stopping) (pid : Int) (alive dead : StopPhase) : Option Call × Stopping :=
  match pidIsAlive state.named pid with
  | .ok true => (some (.probed pid true), { state with phase := alive })
  | .ok false => (some (.probed pid false), { state with phase := dead })
  | .error error => (none, { state with phase := .raised error })

/-- `os.kill(pid, signal)`. -/
def Stopping.signal (state : Stopping) (signal : Signal) (pid : Int) (next : StopPhase) : Option Call × Stopping :=
  match kill state.named pid with
  | .ok () => (some (.signalled signal pid), { state with phase := next })
  | .error error => (none, { state with phase := .raised error })

def proceed (state : Stopping) : Option Call × Stopping :=
  match state.phase with
  | .reading =>
    -- no pidfile and a text that is no number both end here
    match state.pidfile.bind (readPid readText intOf) with
    | none => (none, { state with phase := .returned false })
    | some pid => (none, { state with phase := .probing pid })
  | .probing pid => state.probe pid (.terminating pid) (.unlinking false)
  | .terminating pid => state.signal .sigterm pid (.timing pid)
  | .timing pid => (none, { state with phase := .waiting pid (state.clock + timeout) })
  | .waiting pid deadline =>
    if state.clock < deadline then (none, { state with phase := .polling pid deadline })
    else (none, { state with phase := .probingAgain pid })
  | .polling pid deadline => state.probe pid (.sleeping pid deadline) (.probingAgain pid)
  -- `time.sleep` takes at least its time; `pass` adds what it takes longer
  | .sleeping pid deadline =>
    (none, { state with phase := .waiting pid deadline, clock := state.clock + SLEEP_MILLISECONDS })
  -- the loop ends on either condition, and asks once more
  | .probingAgain pid => state.probe pid (.killing pid) (.unlinking true)
  | .killing pid => state.signal .sigkill pid (.unlinking true)
  -- a pidfile that is gone is no error
  | .unlinking stopped => (none, { state with phase := .returned stopped, pidfile := none })
  | .returned _ => (none, state)
  | .raised _ => (none, state)

def stopStep (state : Stopping) : StopEvent → Option Call × Stopping
  | .proceed => proceed readText intOf timeout state
  | .exit => (none, { state with named := .gone })
  -- only a pid that is gone is given away again
  | .reuse owned =>
    match state.named with
    | .gone => (none, { state with named := if owned then .ours else .foreign })
    | _ => (none, state)
  | .pass milliseconds => (none, { state with clock := state.clock + milliseconds })
  | .remove => (none, { state with pidfile := none })

def beforeStop (pidfile : Option Bytes) (named : Named) (clock : Int) : Stopping := ⟨.reading, named, pidfile, clock⟩

abbrev StopStep := Transition Stopping StopEvent (Option Call)

def calls (history : List StopStep) : List Call := history.filterMap fun transition => transition.output

def StopPhase.Ended : StopPhase → Prop
  | .returned _ => True
  | .raised _ => True
  | _ => False

/-- What the file holds is the pid. -/
def Holds (pidfile : Option Bytes) (pid : Int) : Prop := pidfile.bind (readPid readText intOf) = some pid

/-- The promise of `stop_server`, given the pidfile it found and the calls it has made. -/
structure CleanStop (pidfile : Option Bytes) (made : List Call) (state : Stopping) : Prop where
  returns : ∀ error, state.phase ≠ .raised error
  signals : ∀ signal pid, .signalled signal pid ∈ made → 0 < pid ∧ Holds readText intOf pidfile pid
  unlinked : state.phase.Ended → ∀ pid, Holds readText intOf pidfile pid → state.pidfile = none
  stopped : state.phase = .returned true → ∃ pid, Holds readText intOf pidfile pid ∧
    .probed pid true ∈ made ∧ .signalled .sigterm pid ∈ made

/-- What the next step may find: what is probed first is a process, or not there, and what is
signalled is still there and may be signalled. -/
def StopPhase.Proper (named : Named) : StopPhase → Prop
  | .probing pid => PidFits pid ∧ (0 < pid ∨ (pid ≠ 0 ∧ named = .gone))
  | .terminating _ => named = .ours
  | .killing _ => named = .ours
  | _ => True

instance (named : Named) (phase : StopPhase) : Decidable (phase.Proper named) :=
  match phase with
  | .probing pid => inferInstanceAs (Decidable (PidFits pid ∧ (0 < pid ∨ (pid ≠ 0 ∧ named = .gone))))
  | .terminating _ => inferInstanceAs (Decidable (named = .ours))
  | .killing _ => inferInstanceAs (Decidable (named = .ours))
  | .reading => .isTrue trivial
  | .timing _ => .isTrue trivial
  | .waiting _ _ => .isTrue trivial
  | .polling _ _ => .isTrue trivial
  | .sleeping _ _ => .isTrue trivial
  | .probingAgain _ => .isTrue trivial
  | .unlinking _ => .isTrue trivial
  | .returned _ => .isTrue trivial
  | .raised _ => .isTrue trivial

/-- The condition on a step. -/
def Meets (transition : StopStep) : Prop :=
  transition.input = .proceed → transition.before.phase.Proper transition.before.named

instance (transition : StopStep) : Decidable (Meets transition) :=
  inferInstanceAs (Decidable (transition.input = .proceed → transition.before.phase.Proper transition.before.named))

variable {readText intOf timeout}

/-! ## What a call of `os.kill` comes to -/

theorem kill_eq_ok {named : Named} {pid : Int} : kill named pid = .ok () ↔ PidFits pid ∧ (pid = 0 ∨ named = .ours) := by
  unfold kill
  by_cases fits : PidFits pid
  · by_cases group : pid = 0
    · subst group
      simp [fits]
    · cases named <;> simp [fits, group]
  · simp [fits]

theorem pidIsAlive_of_fits {named : Named} {pid : Int} (fits : PidFits pid) :
    pidIsAlive named pid = .ok (decide (pid = 0 ∨ named ≠ .gone)) := by
  unfold pidIsAlive kill
  by_cases group : pid = 0
  · subst group
    simp [fits]
  · cases named <;> simp [fits, group]

theorem pidIsAlive_of_misfit {named : Named} {pid : Int} (misfit : ¬PidFits pid) :
    pidIsAlive named pid = .error .overflowError := by
  unfold pidIsAlive kill
  simp [misfit]

/-- The three ways in which a probe ends. -/
theorem probe_cases (state : Stopping) (pid : Int) (alive dead : StopPhase) :
    (PidFits pid ∧ (pid = 0 ∨ state.named ≠ .gone) ∧
      state.probe pid alive dead = (some (.probed pid true), { state with phase := alive })) ∨
    (PidFits pid ∧ pid ≠ 0 ∧ state.named = .gone ∧
      state.probe pid alive dead = (some (.probed pid false), { state with phase := dead })) ∨
    (¬PidFits pid ∧ state.probe pid alive dead = (none, { state with phase := .raised .overflowError })) := by
  unfold Stopping.probe
  by_cases fits : PidFits pid
  · rw [pidIsAlive_of_fits fits]
    by_cases answers : pid = 0 ∨ state.named ≠ .gone
    · exact .inl ⟨fits, answers, by simp [answers]⟩
    · have silent := not_or.mp answers
      exact .inr (.inl ⟨fits, silent.1, not_not.mp silent.2, by simp [silent.1, not_not.mp silent.2]⟩)
  · rw [pidIsAlive_of_misfit fits]
    exact .inr (.inr ⟨fits, rfl⟩)

/-- A signal is sent, or the exception goes on. -/
theorem signal_cases (state : Stopping) (signal : Signal) (pid : Int) (next : StopPhase) :
    (PidFits pid ∧ (pid = 0 ∨ state.named = .ours) ∧
      state.signal signal pid next = (some (.signalled signal pid), { state with phase := next })) ∨
    ((pid ≠ 0 → state.named ≠ .ours ∨ ¬PidFits pid) ∧
      ∃ error, state.signal signal pid next = (none, { state with phase := .raised error })) := by
  unfold Stopping.signal
  cases killed : kill state.named pid with
  | ok nothing =>
    obtain ⟨fits, there⟩ := kill_eq_ok.mp killed
    exact .inl ⟨fits, there, rfl⟩
  | error error =>
    refine .inr ⟨fun process => ?_, error, rfl⟩
    by_contra both
    obtain ⟨owned, fits⟩ := not_or.mp both
    rw [kill_eq_ok.mpr ⟨not_not.mp fits, .inr (not_not.mp owned)⟩] at killed
    cases killed

/-! ## A run whose steps meet the condition -/

section Sound

variable (readText intOf) (pidfile : Option Bytes)

/-- The file named a process, and it was there. -/
structure Seen (made : List Call) (pid : Int) : Prop where
  held : Holds readText intOf pidfile pid
  positive : 0 < pid
  fits : PidFits pid
  alive : .probed pid true ∈ made

/-- And SIGTERM was sent to it. -/
structure Terminated (made : List Call) (pid : Int) : Prop extends Seen readText intOf pidfile made pid where
  terminated : .signalled .sigterm pid ∈ made

/-- The invariant, phase by phase. -/
def PhaseSound (made : List Call) (state : Stopping) : Prop :=
  match state.phase with
  | .reading => state.pidfile = pidfile ∨ state.pidfile = none
  | .probing pid => Holds readText intOf pidfile pid
  | .terminating pid => Seen readText intOf pidfile made pid
  | .timing pid => Terminated readText intOf pidfile made pid
  | .waiting pid _ => Terminated readText intOf pidfile made pid
  | .polling pid _ => Terminated readText intOf pidfile made pid
  | .sleeping pid _ => Terminated readText intOf pidfile made pid
  | .probingAgain pid => Terminated readText intOf pidfile made pid
  | .killing pid => Terminated readText intOf pidfile made pid
  | .unlinking stopped => stopped = true → ∃ pid, Terminated readText intOf pidfile made pid
  | .returned stopped => (∀ pid, Holds readText intOf pidfile pid → state.pidfile = none) ∧
      (stopped = true → ∃ pid, Terminated readText intOf pidfile made pid)
  | .raised _ => False

structure Sound (made : List Call) (state : Stopping) : Prop where
  signals : ∀ signal pid, .signalled signal pid ∈ made → 0 < pid ∧ Holds readText intOf pidfile pid
  phase : PhaseSound readText intOf pidfile made state

variable {readText intOf pidfile}

theorem Seen.mono {made more : List Call} {pid : Int} (seen : Seen readText intOf pidfile made pid)
    (subset : made ⊆ more) : Seen readText intOf pidfile more pid :=
  ⟨seen.held, seen.positive, seen.fits, subset seen.alive⟩

theorem Terminated.mono {made more : List Call} {pid : Int} (terminated : Terminated readText intOf pidfile made pid)
    (subset : made ⊆ more) : Terminated readText intOf pidfile more pid :=
  ⟨terminated.toSeen.mono subset, subset terminated.terminated⟩

/-- The invariant is the promise, and more. -/
theorem Sound.cleanStop {made : List Call} {state : Stopping} (sound : Sound readText intOf pidfile made state) :
    CleanStop readText intOf pidfile made state where
  returns := by
    intro error raised
    have phase := sound.phase
    rwa [PhaseSound, raised] at phase
  signals := sound.signals
  unlinked := by
    intro ended pid held
    have phase := sound.phase
    unfold PhaseSound at phase
    cases shape : state.phase with
    | returned stopped =>
      rw [shape] at phase
      exact phase.1 pid held
    | raised error =>
      rw [shape] at phase
      exact phase.elim
    | _ =>
      rw [shape] at ended
      exact ended.elim
  stopped := by
    intro returned
    have phase := sound.phase
    rw [PhaseSound, returned] at phase
    obtain ⟨pid, terminated⟩ := phase.2 rfl
    exact ⟨pid, terminated.held, terminated.alive, terminated.terminated⟩

theorem calls_append (history : List StopStep) (transition : StopStep) :
    calls (history ++ [transition]) = calls history ++ transition.output.toList := by
  rw [calls, List.filterMap_append]
  cases output : transition.output <;> simp [calls, output]

/-- A step without a call. -/
theorem Sound.quiet {made : List Call} {state after : Stopping} (sound : Sound readText intOf pidfile made state)
    (phase : PhaseSound readText intOf pidfile made after) :
    Sound readText intOf pidfile (made ++ (none : Option Call).toList) after := by
  rw [Option.toList_none, List.append_nil]
  exact ⟨sound.signals, phase⟩

theorem Sound.probe {made : List Call} {state : Stopping} {pid : Int} {alive dead : StopPhase}
    (sound : Sound readText intOf pidfile made state) (fits : PidFits pid)
    (whenAlive : pid = 0 ∨ state.named ≠ .gone →
      PhaseSound readText intOf pidfile (made ++ [.probed pid true]) { state with phase := alive })
    (whenDead : PhaseSound readText intOf pidfile (made ++ [.probed pid false]) { state with phase := dead }) :
    Sound readText intOf pidfile (made ++ (state.probe pid alive dead).1.toList) (state.probe pid alive dead).2 := by
  have unsignalled : ∀ answer signal target, .signalled signal target ∈ made ++ [Call.probed pid answer] →
      0 < target ∧ Holds readText intOf pidfile target := by
    intro answer signal target member
    rcases List.mem_append.mp member with before | now
    · exact sound.signals signal target before
    · cases List.mem_singleton.mp now
  rcases probe_cases state pid alive dead with ⟨_, answers, stepped⟩ | ⟨_, _, _, stepped⟩ | ⟨misfit, _⟩
  · rw [stepped]
    exact ⟨unsignalled true, whenAlive answers⟩
  · rw [stepped]
    exact ⟨unsignalled false, whenDead⟩
  · exact absurd fits misfit

theorem Sound.signal {made : List Call} {state : Stopping} {pid : Int} {next : StopPhase} (signal : Signal)
    (sound : Sound readText intOf pidfile made state) (seen : Seen readText intOf pidfile made pid)
    (owned : state.named = .ours)
    (phase : PhaseSound readText intOf pidfile (made ++ [.signalled signal pid]) { state with phase := next }) :
    Sound readText intOf pidfile (made ++ (state.signal signal pid next).1.toList)
      (state.signal signal pid next).2 := by
  rcases signal_cases state signal pid next with ⟨_, _, stepped⟩ | ⟨fails, _⟩
  · rw [stepped]
    refine ⟨fun other target member => ?_, phase⟩
    rcases List.mem_append.mp member with before | now
    · exact sound.signals other target before
    · cases List.mem_singleton.mp now
      exact ⟨seen.positive, seen.held⟩
  · rcases fails (ne_of_gt seen.positive) with foreign | misfit
    · exact absurd owned foreign
    · exact absurd seen.fits misfit

/-- The step lemma, for the steps of `stop_server` itself. -/
theorem Sound.proceed {made : List Call} {state : Stopping} (sound : Sound readText intOf pidfile made state)
    (meets : ∀ output after, Meets ⟨state, .proceed, output, after⟩) :
    Sound readText intOf pidfile (made ++ (Initiator.proceed readText intOf timeout state).1.toList)
      (Initiator.proceed readText intOf timeout state).2 := by
  have condition := meets none state rfl
  have phase := sound.phase
  obtain ⟨current, named, found, clock⟩ := state
  cases current with
  | reading =>
    unfold Initiator.proceed
    dsimp only
    split
    · rename_i noPid
      refine sound.quiet ⟨fun pid held => ?_, by simp⟩
      -- the file is the one that was found, or has been removed since
      rcases phase with rfl | removed
      · rw [Holds, noPid] at held
        cases held
      · exact removed
    · rename_i pid read
      refine sound.quiet ?_
      rcases phase with rfl | rfl
      · exact read
      · cases read
  | probing pid =>
    refine sound.probe condition.1 (fun answers => ?_) (by simp [PhaseSound])
    have positive : 0 < pid := by
      rcases condition.2 with process | ⟨nonzero, gone⟩
      · exact process
      · exact (answers.elim nonzero fun there => there gone).elim
    exact ⟨phase, positive, condition.1, by simp⟩
  | terminating pid =>
    refine sound.signal .sigterm phase condition ?_
    exact ⟨phase.mono (List.subset_append_left _ _), by simp⟩
  | timing pid => exact sound.quiet phase
  | waiting pid deadline =>
    unfold Initiator.proceed
    dsimp only
    split
    · exact sound.quiet phase
    · exact sound.quiet phase
  | polling pid deadline =>
    refine sound.probe phase.fits (fun _ => ?_) ?_
    · exact phase.mono (List.subset_append_left _ _)
    · exact phase.mono (List.subset_append_left _ _)
  | sleeping pid deadline => exact sound.quiet phase
  | probingAgain pid =>
    refine sound.probe phase.fits (fun _ => ?_) (fun _ => ⟨pid, ?_⟩)
    · exact phase.mono (List.subset_append_left _ _)
    · exact phase.mono (List.subset_append_left _ _)
  | killing pid =>
    refine sound.signal .sigkill phase.toSeen condition fun _ => ⟨pid, ?_⟩
    exact phase.mono (List.subset_append_left _ _)
  | unlinking stopped => exact sound.quiet ⟨fun _ _ => rfl, phase⟩
  | returned stopped => exact sound.quiet phase
  | raised error => exact phase.elim

/-- What happens outside of `stop_server` leaves its phase, and can only remove the file. -/
structure Outside (state after : Stopping) : Prop where
  phase : after.phase = state.phase
  pidfile : after.pidfile = state.pidfile ∨ after.pidfile = none

theorem outside_of_event (state : Stopping) {event : StopEvent} (other : event ≠ .proceed) :
    (stopStep readText intOf timeout state event).1 = none ∧
      Outside state (stopStep readText intOf timeout state event).2 := by
  cases event with
  | proceed => exact absurd rfl other
  | exit => exact ⟨rfl, rfl, .inl rfl⟩
  | reuse owned =>
    unfold stopStep
    dsimp only
    split
    · exact ⟨rfl, rfl, .inl rfl⟩
    · exact ⟨rfl, rfl, .inl rfl⟩
  | pass milliseconds => exact ⟨rfl, rfl, .inl rfl⟩
  | remove => exact ⟨rfl, rfl, .inr rfl⟩

theorem PhaseSound.outside {made : List Call} {state after : Stopping}
    (sound : PhaseSound readText intOf pidfile made state) (outside : Outside state after) :
    PhaseSound readText intOf pidfile made after := by
  unfold PhaseSound at sound ⊢
  rw [outside.phase]
  cases shape : state.phase with
  | reading =>
    rw [shape] at sound
    rcases outside.pidfile with kept | removed
    · rwa [kept]
    · exact .inr removed
  | returned stopped =>
    rw [shape] at sound
    refine ⟨fun pid held => ?_, sound.2⟩
    rcases outside.pidfile with kept | removed
    · rw [kept]
      exact sound.1 pid held
    · exact removed
  | _ => rwa [shape] at sound

/-- The step lemma. -/
theorem Sound.step {history : List StopStep} {transition : StopStep}
    (sound : Sound readText intOf pidfile (calls history) transition.before) (meets : Meets transition)
    (stepped : stopStep readText intOf timeout transition.before transition.input =
      (transition.output, transition.after)) :
    Sound readText intOf pidfile (calls (history ++ [transition])) transition.after := by
  obtain ⟨before, input, output, after⟩ := transition
  rw [calls_append]
  by_cases own : input = .proceed
  · subst own
    have next := @Sound.proceed _ _ timeout _ _ _ sound fun _ _ => meets
    rw [stopStep] at stepped
    rwa [stepped] at next
  · obtain ⟨silent, outside⟩ := @outside_of_event readText intOf timeout before _ own
    rw [stepped] at silent outside
    subst silent
    exact sound.quiet (sound.phase.outside outside)

end Sound

/-! ## A run with a step that does not -/

/-- The promise is broken, or a signal to something that is no process comes next. -/
def Broken (made : List Call) (state : Stopping) : Prop :=
  (∃ error, state.phase = .raised error) ∨ (∃ signal pid, pid ≤ 0 ∧ .signalled signal pid ∈ made) ∨
    ∃ pid, pid ≤ 0 ∧ state.phase = .terminating pid

/-- An exception, or a signal to the group of the caller. -/
theorem broken_of_signal {made : List Call} {state : Stopping} {pid : Int} (signal : Signal) (next : StopPhase)
    (astray : pid ≤ 0 ∨ state.named ≠ .ours) :
    Broken (made ++ (state.signal signal pid next).1.toList) (state.signal signal pid next).2 := by
  rcases signal_cases state signal pid next with ⟨_, there, stepped⟩ | ⟨_, error, stepped⟩
  · have group : pid ≤ 0 := by
      rcases astray with nonpositive | foreign
      · exact nonpositive
      · exact (there.resolve_right foreign).le
    rw [stepped]
    exact .inr (.inl ⟨signal, pid, group, by simp⟩)
  · rw [stepped]
    exact .inl ⟨error, rfl⟩

theorem Broken.step {history : List StopStep} {transition : StopStep}
    (broken : Broken (calls history) transition.before)
    (stepped : stopStep readText intOf timeout transition.before transition.input =
      (transition.output, transition.after)) :
    Broken (calls (history ++ [transition])) transition.after := by
  obtain ⟨⟨phase, named, found, clock⟩, input, output, after⟩ := transition
  rw [calls_append]
  rcases broken with ⟨error, raised⟩ | ⟨signal, pid, nonpositive, sent⟩ | ⟨pid, nonpositive, next⟩
  · refine .inl ⟨error, ?_⟩
    by_cases own : input = .proceed
    · subst own
      cases raised
      cases stepped
      rfl
    · obtain ⟨_, outside⟩ := @outside_of_event readText intOf timeout ⟨phase, named, found, clock⟩ _ own
      rw [stepped] at outside
      exact outside.phase.trans raised
  · exact .inr (.inl ⟨signal, pid, nonpositive, List.mem_append_left _ sent⟩)
  · by_cases own : input = .proceed
    · subst own
      cases next
      have sent := @broken_of_signal (calls history) ⟨.terminating pid, named, found, clock⟩ pid .sigterm (.timing pid)
        (.inl nonpositive)
      change (⟨.terminating pid, named, found, clock⟩ : Stopping).signal .sigterm pid (.timing pid) =
        (output, after) at stepped
      rwa [stepped] at sent
    · obtain ⟨_, outside⟩ := @outside_of_event readText intOf timeout ⟨phase, named, found, clock⟩ _ own
      rw [stepped] at outside
      exact .inr (.inr ⟨pid, nonpositive, outside.phase.trans next⟩)

theorem broken_of_unmet {history : List StopStep} {transition : StopStep} (unmet : ¬Meets transition)
    (stepped : stopStep readText intOf timeout transition.before transition.input =
      (transition.output, transition.after)) :
    Broken (calls (history ++ [transition])) transition.after := by
  obtain ⟨⟨phase, named, found, clock⟩, input, output, after⟩ := transition
  rw [calls_append]
  obtain ⟨own, unmet⟩ := Classical.not_imp.mp unmet
  cases own
  cases phase with
  | probing pid =>
    change (⟨.probing pid, named, found, clock⟩ : Stopping).probe pid (.terminating pid) (.unlinking false) =
      (output, after) at stepped
    rcases probe_cases ⟨.probing pid, named, found, clock⟩ pid (.terminating pid) (.unlinking false) with
      ⟨fits, answers, probed⟩ | ⟨fits, nonzero, gone, _⟩ | ⟨_, probed⟩
    · have nonpositive : pid ≤ 0 := by
        by_contra positive
        exact unmet ⟨fits, .inl (by omega)⟩
      rw [probed] at stepped
      cases stepped
      exact .inr (.inr ⟨pid, nonpositive, rfl⟩)
    · exact absurd ⟨fits, .inr ⟨nonzero, gone⟩⟩ unmet
    · rw [probed] at stepped
      cases stepped
      exact .inl ⟨_, rfl⟩
  | terminating pid =>
    have sent := @broken_of_signal (calls history) ⟨.terminating pid, named, found, clock⟩ pid .sigterm (.timing pid)
      (.inr unmet)
    change (⟨.terminating pid, named, found, clock⟩ : Stopping).signal .sigterm pid (.timing pid) =
      (output, after) at stepped
    rwa [stepped] at sent
  | killing pid =>
    have sent := @broken_of_signal (calls history) ⟨.killing pid, named, found, clock⟩ pid .sigkill (.unlinking true)
      (.inr unmet)
    change (⟨.killing pid, named, found, clock⟩ : Stopping).signal .sigkill pid (.unlinking true) =
      (output, after) at stepped
    rwa [stepped] at sent
  | _ => exact absurd trivial unmet

theorem Broken.not_cleanStop {pidfile : Option Bytes} {made : List Call} {state : Stopping}
    (broken : Broken made state) (ended : state.phase.Ended) : ¬CleanStop readText intOf pidfile made state := by
  intro clean
  rcases broken with ⟨error, raised⟩ | ⟨signal, pid, nonpositive, sent⟩ | ⟨pid, _, next⟩
  · exact clean.returns error raised
  · have positive := (clean.signals signal pid sent).1
    omega
  · rw [next] at ended
    exact ended

/-! ## The end -/

/-- The turns of the loop in so many milliseconds. -/
def naps (milliseconds : Int) : Nat := (milliseconds.toNat + SLEEP_MILLISECONDS - 1) / SLEEP_MILLISECONDS

/-- A bound on the steps that are left. -/
def Stopping.stepsLeft (timeout : Int) (state : Stopping) : Nat :=
  match state.phase with
  | .reading => 8 + 3 * naps timeout
  | .probing _ => 7 + 3 * naps timeout
  | .terminating _ => 6 + 3 * naps timeout
  | .timing _ => 5 + 3 * naps timeout
  | .waiting _ deadline => 4 + 3 * naps (deadline - state.clock)
  -- the turn that has begun is counted apart: the deadline may pass during it
  | .polling _ deadline => 6 + 3 * (naps (deadline - state.clock) - 1)
  | .sleeping _ deadline => 5 + 3 * (naps (deadline - state.clock) - 1)
  | .probingAgain _ => 3
  | .killing _ => 2
  | .unlinking _ => 1
  | .returned _ => 0
  | .raised _ => 0

theorem naps_sub (milliseconds : Int) : naps (milliseconds - SLEEP_MILLISECONDS) ≤ naps milliseconds - 1 := by
  simp only [naps, SLEEP_MILLISECONDS]
  omega

theorem naps_mono {fewer more : Int} (le : fewer ≤ more) : naps fewer ≤ naps more := by
  simp only [naps, SLEEP_MILLISECONDS]
  omega

theorem naps_pos {milliseconds : Int} (positive : 0 < milliseconds) : 0 < naps milliseconds := by
  simp only [naps, SLEEP_MILLISECONDS]
  omega

theorem stepsLeft_probe {state : Stopping} {pid : Int} {alive dead : StopPhase} {bound : Nat}
    (whenAlive : { state with phase := alive }.stepsLeft timeout ≤ bound)
    (whenDead : { state with phase := dead }.stepsLeft timeout ≤ bound) :
    (state.probe pid alive dead).2.stepsLeft timeout ≤ bound := by
  rcases probe_cases state pid alive dead with ⟨_, _, stepped⟩ | ⟨_, _, _, stepped⟩ | ⟨_, stepped⟩
  · rwa [stepped]
  · rwa [stepped]
  · rw [stepped]
    exact Nat.zero_le _

theorem stepsLeft_signal {state : Stopping} {signal : Signal} {pid : Int} {next : StopPhase} {bound : Nat}
    (sent : { state with phase := next }.stepsLeft timeout ≤ bound) :
    (state.signal signal pid next).2.stepsLeft timeout ≤ bound := by
  rcases signal_cases state signal pid next with ⟨_, _, stepped⟩ | ⟨_, error, stepped⟩
  · rwa [stepped]
  · rw [stepped]
    exact Nat.zero_le _

theorem stepsLeft_proceed (state : Stopping) :
    (proceed readText intOf timeout state).2.stepsLeft timeout ≤ state.stepsLeft timeout - 1 := by
  obtain ⟨phase, named, found, clock⟩ := state
  cases phase with
  | reading =>
    unfold proceed
    dsimp only
    split
    · exact Nat.zero_le _
    · simp only [Stopping.stepsLeft]
      omega
  | probing pid =>
    refine stepsLeft_probe ?_ ?_
    · simp only [Stopping.stepsLeft]
      omega
    · simp only [Stopping.stepsLeft]
      omega
  | terminating pid =>
    refine stepsLeft_signal ?_
    simp only [Stopping.stepsLeft]
    omega
  | timing pid =>
    have whole : clock + timeout - clock = timeout := by omega
    simp only [proceed, Stopping.stepsLeft, whole]
    omega
  | waiting pid deadline =>
    unfold proceed
    dsimp only
    split
    · rename_i early
      have turn := naps_pos (Int.sub_pos_of_lt early)
      simp only [Stopping.stepsLeft]
      omega
    · simp only [Stopping.stepsLeft]
      omega
  | polling pid deadline =>
    refine stepsLeft_probe ?_ ?_
    · simp only [Stopping.stepsLeft]
      omega
    · simp only [Stopping.stepsLeft]
      omega
  | sleeping pid deadline =>
    have slept := naps_sub (deadline - clock)
    have later : deadline - (clock + SLEEP_MILLISECONDS) = deadline - clock - SLEEP_MILLISECONDS := by omega
    simp only [proceed, Stopping.stepsLeft, later]
    omega
  | probingAgain pid =>
    refine stepsLeft_probe ?_ ?_
    · exact le_refl 2
    · exact Nat.le_succ 1
  | killing pid => exact stepsLeft_signal (le_refl 1)
  | unlinking stopped => exact le_refl 0
  | returned stopped => exact le_refl 0
  | raised error => exact le_refl 0

theorem stepsLeft_step (state : Stopping) (event : StopEvent) :
    (stopStep readText intOf timeout state event).2.stepsLeft timeout ≤ state.stepsLeft timeout := by
  cases event with
  | proceed => exact (stepsLeft_proceed state).trans (Nat.sub_le _ _)
  | exit => exact le_refl _
  | reuse owned =>
    unfold stopStep
    dsimp only
    split
    · exact le_refl _
    · exact le_refl _
  | pass milliseconds =>
    obtain ⟨phase, named, found, clock⟩ := state
    have later : ∀ deadline, naps (deadline - (clock + milliseconds)) ≤ naps (deadline - clock) :=
      fun deadline => naps_mono (by omega)
    cases phase with
    | waiting pid deadline =>
      have fewer := later deadline
      simp only [stopStep, Stopping.stepsLeft]
      omega
    | polling pid deadline =>
      have fewer := later deadline
      simp only [stopStep, Stopping.stepsLeft]
      omega
    | sleeping pid deadline =>
      have fewer := later deadline
      simp only [stopStep, Stopping.stepsLeft]
      omega
    | _ => exact le_refl _
  | remove => exact le_refl _

theorem ended_of_stepsLeft {state : Stopping} (nothingLeft : state.stepsLeft timeout = 0) : state.phase.Ended := by
  obtain ⟨phase, named, found, clock⟩ := state
  cases phase with
  | returned stopped => trivial
  | raised error => trivial
  | _ =>
    simp only [Stopping.stepsLeft] at nothingLeft
    omega

end Steps

/-- In every run whose steps all meet the condition `stop_server` keeps its promise, in every
run that has come to its end it does so only then, and every run with enough steps of its own
has come to its end. -/
theorem stops_cleanly_iff (readText : Bytes → Option String) (intOf : String → Option Int) (timeout : Int)
    (pidfile : Option Bytes) (named : Named) (clock : Int) (events : List StopEvent) :
    let history := transitions (stopStep readText intOf timeout) (beforeStop pidfile named clock) events
    let state := run (stopStep readText intOf timeout) (beforeStop pidfile named clock) events
    ((∀ transition ∈ history, Meets transition) → CleanStop readText intOf pidfile (calls history) state) ∧
    (state.phase.Ended →
      (CleanStop readText intOf pidfile (calls history) state ↔ ∀ transition ∈ history, Meets transition)) ∧
    (8 + 3 * naps timeout ≤ events.count .proceed → state.phase.Ended) := by
  intro history state
  have kept : (∀ transition ∈ history, Meets transition) →
      CleanStop readText intOf pidfile (calls history) state := by
    intro meets
    have start : Sound readText intOf pidfile (calls []) (beforeStop pidfile named clock) :=
      ⟨fun _ _ member => (List.not_mem_nil member).elim, .inl rfl⟩
    have sound := (@invariant_of_history _ _ _ (stopStep readText intOf timeout)
      (fun history state => Sound readText intOf pidfile (calls history) state) Meets [] _ events
      (fun _ _ meets sound stepped => sound.step meets stepped) start meets).2
    exact sound.cleanStop
  refine ⟨kept, fun ended => ⟨fun clean transition member => ?_, kept⟩, fun enough => ?_⟩
  · by_contra unmet
    -- from the step on that does not meet the condition, the promise stays broken
    obtain ⟨earlier, later, shape⟩ := List.append_of_mem member
    obtain ⟨rest, rfl, last⟩ := transitions_split shape
    have broken := (@invariant_of_history _ _ _ (stopStep readText intOf timeout)
      (fun history state => Broken (calls history) state) (fun _ => True) (earlier ++ [transition]) transition.after rest
      (fun _ _ _ broken stepped => broken.step stepped)
      (broken_of_unmet unmet (step_of_mem_transitions member)) fun _ _ => trivial).2
    rw [List.append_assoc, List.singleton_append, ← shape, ← last] at broken
    exact broken.not_cleanStop ended clean
  · have bound := @rank_run_le _ _ _ (stopStep readText intOf timeout) (Stopping.stepsLeft timeout)
      (fun event => event == .proceed)
      (fun state event counts => by
        rw [beq_iff_eq] at counts
        subst counts
        exact stepsLeft_proceed state)
      stepsLeft_step (beforeStop pidfile named clock) events
    have started : (beforeStop pidfile named clock).stepsLeft timeout = 8 + 3 * naps timeout := rfl
    rw [started] at bound
    refine @ended_of_stepsLeft timeout _ (Nat.le_zero.mp (bound.trans ?_))
    exact (Nat.sub_eq_zero_of_le enough).le

/-! ## Runs on fixed pidfiles -/

def decimalDigits (digits : List Char) : Option Int :=
  if digits ≠ [] ∧ digits.all Char.isDigit then
    some (digits.foldl (fun value digit => value * 10 + (digit.toNat - '0'.toNat : Nat)) 0)
  else none

/-- `int(text)` of a plain decimal literal. -/
def decimalInt (text : String) : Option Int :=
  match text.toList with
  | '-' :: digits => (decimalDigits digits).map Neg.neg
  | digits => decimalDigits digits

/-- A run on a pidfile with this text. -/
def stopRun (text : String) (named : Named) (events : List StopEvent) : Stopping :=
  run (stopStep decodeUtf8 decimalInt 5000) (beforeStop (some (encodeUtf8 text)) named 0) events

def stopCalls (text : String) (named : Named) (events : List StopEvent) : List Call :=
  calls (transitions (stopStep decodeUtf8 decimalInt 5000) (beforeStop (some (encodeUtf8 text)) named 0) events)

/-- The server exits on SIGTERM, and is gone when the loop asks for it. -/
theorem stops_cleanly_iff_exits :
    let events : List StopEvent := [.proceed, .proceed, .proceed, .exit, .proceed, .proceed, .proceed, .proceed, .proceed]
    (stopRun "4242\n" .ours events).phase = .returned true ∧
      CleanStop decodeUtf8 decimalInt (some (encodeUtf8 "4242\n")) (stopCalls "4242\n" .ours events)
        (stopRun "4242\n" .ours events) := by
  refine ⟨by decide +kernel, ?_⟩
  exact (stops_cleanly_iff decodeUtf8 decimalInt 5000 (some (encodeUtf8 "4242\n")) .ours 0 _).1 (by decide +kernel)

/-- The server exits by itself between the probe and SIGTERM, the file holds a process group,
the number of a process of somebody else, or a number that is none of any process. -/
theorem stop_unclean :
    (stopRun "4242" .ours [.proceed, .proceed, .exit, .proceed]).phase = .raised .processLookupError ∧
    (stopRun "4242" .ours [.proceed, .proceed, .exit, .proceed]).pidfile = some (encodeUtf8 "4242") ∧
    Call.signalled .sigterm 0 ∈ stopCalls "0" .ours [.proceed, .proceed, .proceed] ∧
    Call.signalled .sigterm (-1) ∈ stopCalls "-1" .ours [.proceed, .proceed, .proceed] ∧
    (stopRun "4242" .foreign [.proceed, .proceed, .proceed]).phase = .raised .permissionError ∧
    (stopRun "4242424242" .gone [.proceed, .proceed]).phase = .raised .overflowError ∧
    ¬∀ pidfile named clock events, CleanStop decodeUtf8 decimalInt pidfile
      (calls (transitions (stopStep decodeUtf8 decimalInt 5000) (beforeStop pidfile named clock) events))
      (run (stopStep decodeUtf8 decimalInt 5000) (beforeStop pidfile named clock) events) := by
  have raises : (stopRun "4242" .ours [.proceed, .proceed, .exit, .proceed]).phase = .raised .processLookupError := by
    decide +kernel
  refine ⟨raises, by decide +kernel, by decide +kernel, by decide +kernel, by decide +kernel, by decide +kernel, ?_⟩
  intro clean
  exact (clean (some (encodeUtf8 "4242")) .ours 0 [.proceed, .proceed, .exit, .proceed]).returns _ raises

end SecretWeb.Initiator
