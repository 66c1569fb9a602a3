import SecretWeb.Data.Bytes
import SecretWeb.Server.Boot
import SecretWeb.Machine.Runs

/-! # Handing KEY1 over

`start_server` and `server.py`, two processes at the two ends of a socketpair.  KEY1 goes one
way; one status, sent once the port is bound or the start has failed, comes back. -/

namespace SecretWeb.Initiator

open SecretWeb.Data SecretWeb.Server SecretWeb.Machine

/-! ## The wire -/

/-- `_LENGTH_PREFIX.pack`. -/
def packLength (length : Nat) : Option Bytes := if length < 2 ^ 32 then some (toBigEndian 4 length) else none

def STATUS_OK : Bytes := [0]

def STATUS_ERR : Bytes := [1]

/-- `_recv_exact` on its way. -/
structure Receiving where
  size : Nat
  got : Bytes

inductive Received where
  | blocked
  | closed
  | more (receiving : Receiving) (queue : Bytes)
  | whole (bytes : Bytes)

/-- One turn of the loop; `recv` gives at most `count + 1` bytes of what is there. -/
def Receiving.turn (receiving : Receiving) (queue : Bytes) (peerOpen : Bool) (count : Nat) : Received :=
  if receiving.size ≤ receiving.got.length then .whole receiving.got
  else
    match queue with
    | [] => if peerOpen then .blocked else .closed
    | first :: rest =>
      let size := min (receiving.size - receiving.got.length) (count + 1)
      .more ⟨receiving.size, receiving.got ++ (first :: rest).take size⟩ ((first :: rest).drop size)

/-! ## The two processes -/

/-- What `start_server` raises. -/
inductive StartFailure where
  | serverStartupError (message : String)
  | unexpectedStatus (status : Bytes)
  | osError
  | structError
  | unicodeDecodeError

inductive InitiatorPhase where
  | spawning
  | sendingKey1
  | awaitingStatus (receiving : Receiving)
  | readingLength (receiving : Receiving)
  | readingMessage (receiving : Receiving)
  | closing (failure : Option StartFailure)
  | writingPid
  | returned
  | raised (failure : StartFailure)

inductive ServerPhase where
  | unborn
  | starting
  | receivingLength (receiving : Receiving)
  | receivingKey1 (receiving : Receiving)
  | loading (left : List String)
  | loadingCertificates
  | binding
  | reporting (message : String)
  | ready
  | announced
  | serving
  | exited

/-- `bound`, `announced` and `served` remember what the server has done. -/
structure Handoff where
  initiator : InitiatorPhase
  server : ServerPhase
  toServer : Bytes
  toInitiator : Bytes
  pid : Option Nat
  pidfile : Option String
  bound : Bool
  announced : Bool
  served : Bool

/-- `parent_sock` is closed on the way out of the exchange. -/
def InitiatorPhase.socketOpen : InitiatorPhase → Bool
  | .writingPid => false
  | .returned => false
  | .raised _ => false
  | _ => true

/-- The server keeps the inherited descriptor to its end. -/
def ServerPhase.socketOpen : ServerPhase → Bool
  | .exited => false
  | _ => true

inductive InitiatorEvent where
  | spawn (pid : Nat)
  | spawnFails
  | sendKey1
  | receive (count : Nat)
  | timeout
  | close
  | writePid (written : Bool)

inductive ServerEvent where
  | proceed (count : Nat)
  | fail (message : String)
  | die

inductive HandoffEvent where
  | initiator (event : InitiatorEvent)
  | server (event : ServerEvent)

section Steps

variable (key1 : String)

/-- `send_key1` once it has the status. -/
def readStatus (status : Bytes) : InitiatorPhase :=
  if status = STATUS_OK then .closing none
  else if status = STATUS_ERR then .readingLength ⟨4, []⟩
  else .closing (some (.unexpectedStatus status))

def readMessage (bytes : Bytes) : InitiatorPhase :=
  match decodeUtf8 bytes with
  | some message => .closing (some (.serverStartupError message))
  | none => .closing (some .unicodeDecodeError)

def initiatorStep (state : Handoff) (event : InitiatorEvent) : Handoff :=
  match state.initiator, event with
  | .spawning, .spawn pid => { state with initiator := .sendingKey1, server := .starting, pid := some pid }
  | .spawning, .spawnFails => { state with initiator := .raised .osError }
  -- a peer that is gone is a broken pipe
  | .sendingKey1, .sendKey1 =>
    match packLength (encodeUtf8 key1).length with
    | none => { state with initiator := .closing (some .structError) }
    | some length =>
      if state.server.socketOpen then
        { state with initiator := .awaitingStatus ⟨1, []⟩
                     toServer := state.toServer ++ length ++ encodeUtf8 key1 }
      else { state with initiator := .closing (some .osError) }
  | .awaitingStatus receiving, .receive count =>
    match receiving.turn state.toInitiator state.server.socketOpen count with
    | .blocked => state
    -- only the wait for the status turns an `OSError` into the startup error
    | .closed => { state with initiator := .closing (some (.serverStartupError
        "server did not report a startup status: socket closed before expected data was received")) }
    | .more receiving queue => { state with initiator := .awaitingStatus receiving, toInitiator := queue }
    | .whole status => { state with initiator := readStatus status }
  | .awaitingStatus _, .timeout =>
    { state with initiator := .closing (some (.serverStartupError
        "server did not report a startup status: timed out")) }
  | .readingLength receiving, .receive count =>
    match receiving.turn state.toInitiator state.server.socketOpen count with
    | .blocked => state
    | .closed => { state with initiator := .closing (some .osError) }
    | .more receiving queue => { state with initiator := .readingLength receiving, toInitiator := queue }
    | .whole length => { state with initiator := .readingMessage ⟨ofBigEndian length, []⟩ }
  | .readingLength _, .timeout => { state with initiator := .closing (some .osError) }
  | .readingMessage receiving, .receive count =>
    match receiving.turn state.toInitiator state.server.socketOpen count with
    | .blocked => state
    | .closed => { state with initiator := .closing (some .osError) }
    | .more receiving queue => { state with initiator := .readingMessage receiving, toInitiator := queue }
    | .whole bytes => { state with initiator := readMessage bytes }
  | .readingMessage _, .timeout => { state with initiator := .closing (some .osError) }
  | .closing none, .close => { state with initiator := .writingPid }
  | .closing (some failure), .close => { state with initiator := .raised failure }
  -- the pidfile is written after the exchange, by `start_server`
  | .writingPid, .writePid true => { state with initiator := .returned, pidfile := state.pid.map toString }
  | .writingPid, .writePid false => { state with initiator := .raised .osError }
  | _, _ => state

/-- The files that are opened under `_startup_guard`. -/
def guardedFiles : List String := [HOSTS_FILENAME, SITES_FILENAME, SECRETS_FILENAME, SHARES_FILENAME]

def serverStep (state : Handoff) (event : ServerEvent) : Handoff :=
  match state.server, event with
  | .unborn, _ => state
  | _, .die => { state with server := .exited }
  | .starting, .proceed _ => { state with server := .receivingLength ⟨4, []⟩ }
  -- nothing is reported before KEY1 has come
  | .starting, .fail _ => { state with server := .exited }
  | .receivingLength receiving, .proceed count =>
    match receiving.turn state.toServer state.initiator.socketOpen count with
    | .blocked => state
    -- an exception before the guard: the process ends without a report
    | .closed => { state with server := .exited }
    | .more receiving queue => { state with server := .receivingLength receiving, toServer := queue }
    | .whole length => { state with server := .receivingKey1 ⟨ofBigEndian length, []⟩ }
  | .receivingKey1 receiving, .proceed count =>
    match receiving.turn state.toServer state.initiator.socketOpen count with
    | .blocked => state
    | .closed => { state with server := .exited }
    | .more receiving queue => { state with server := .receivingKey1 receiving, toServer := queue }
    | .whole bytes =>
      match decodeUtf8 bytes with
      | some _ => { state with server := .loading guardedFiles }
      | none => { state with server := .exited }
  | .loading (_ :: left), .proceed _ => { state with server := .loading left }
  | .loading (name :: _), .fail message =>
    { state with server := .reporting ("failed to initialize " ++ name ++ ": " ++ message) }
  | .loading [], .proceed _ => { state with server := .loadingCertificates }
  | .loadingCertificates, .proceed _ => { state with server := .binding }
  | .loadingCertificates, .fail message => { state with server := .reporting message }
  | .binding, .proceed _ => { state with server := .ready, bound := true }
  | .binding, .fail message => { state with server := .reporting message }
  -- whether the report gets through or not, the exception goes on
  | .reporting message, .proceed _ =>
    match packLength (encodeUtf8 message).length with
    | none => { state with server := .exited }
    | some length =>
      if state.initiator.socketOpen then
        { state with server := .exited
                     toInitiator := state.toInitiator ++ (STATUS_ERR ++ length ++ encodeUtf8 message) }
      else { state with server := .exited }
  | .ready, .proceed _ =>
    if state.initiator.socketOpen then
      { state with server := .announced, announced := true, toInitiator := state.toInitiator ++ STATUS_OK }
    else { state with server := .exited }
  | .announced, .proceed _ => { state with server := .serving, served := true }
  | _, _ => state

def handoffStep (state : Handoff) : HandoffEvent → Unit × Handoff
  | .initiator event => ((), initiatorStep key1 state event)
  | .server event => ((), serverStep state event)

/-- Nothing has happened yet; the pidfile is the one of an earlier server, if any. -/
def beforeHandoff (pidfile : Option String) : Handoff where
  initiator := .spawning
  server := .unborn
  toServer := []
  toInitiator := []
  pid := none
  pidfile := pidfile
  bound := false
  announced := false
  served := false

/-! ## Agreement -/

/-- A normal return means that the port was bound and that the pidfile names the server. -/
def ReturnsBound (state : Handoff) : Prop :=
  state.initiator = .returned → state.bound = true ∧ ∃ pid, state.pid = some pid ∧ state.pidfile = some (toString pid)

/-- An exception means that the server does not get to `serve_forever`. -/
def RaisesUnserved (state : Handoff) : Prop := ∀ failure, state.initiator = .raised failure → state.served = false

/-- The timeout does not fire once the server has announced itself, the server does not
announce itself once the exchange has failed and the socket is about to be closed, and the
pidfile is written. -/
structure Timely (transition : Transition Handoff HandoffEvent Unit) : Prop where
  timeout : transition.input = .initiator .timeout → transition.before.announced = false
  announce : ∀ count failure, transition.input = .server (.proceed count) → transition.before.server = .ready →
    transition.before.initiator ≠ .closing (some failure)
  pidfile : transition.input ≠ .initiator (.writePid false)

variable {key1}

/-! ## Receiving -/

section Turns

variable {receiving next : Receiving} {queue rest bytes : Bytes} {peerOpen : Bool} {count : Nat}

/-- A turn takes a piece off the queue, never an empty one and never more than is wanted. -/
theorem turn_piece (turned : receiving.turn queue peerOpen count = .more next rest) :
    ∃ piece, piece ≠ [] ∧ queue = piece ++ rest ∧ next = ⟨receiving.size, receiving.got ++ piece⟩ ∧
      next.got.length ≤ next.size := by
  unfold Receiving.turn at turned
  split at turned
  · cases turned
  · rename_i unfinished
    cases queue with
    | nil =>
      dsimp only at turned
      split at turned
      · cases turned
      · cases turned
    | cons first others =>
      cases turned
      refine ⟨(first :: others).take (min (receiving.size - receiving.got.length) (count + 1)), ?_, ?_, rfl, ?_⟩
      · apply List.ne_nil_of_length_pos
        simp only [List.length_take, List.length_cons]
        omega
      · rw [List.take_append_drop]
      · simp only [List.length_append, List.length_take]
        omega

/-- No byte is lost or read twice. -/
theorem turn_more (turned : receiving.turn queue peerOpen count = .more next rest) :
    next.size = receiving.size ∧ next.got.length ≤ next.size ∧ next.got ++ rest = receiving.got ++ queue := by
  obtain ⟨piece, _, rfl, rfl, fits⟩ := turn_piece turned
  exact ⟨rfl, fits, List.append_assoc _ _ _⟩

theorem turn_whole (turned : receiving.turn queue peerOpen count = .whole bytes) :
    bytes = receiving.got ∧ receiving.size ≤ receiving.got.length := by
  unfold Receiving.turn at turned
  split at turned
  · rename_i finished
    cases turned
    exact ⟨rfl, finished⟩
  · cases queue with
    | nil =>
      dsimp only at turned
      split at turned
      · cases turned
      · cases turned
    | cons first others => cases turned

theorem turn_ended (ended : receiving.turn queue peerOpen count = .blocked ∨
      receiving.turn queue peerOpen count = .closed) :
    queue = [] ∧ receiving.got.length < receiving.size := by
  unfold Receiving.turn at ended
  split at ended
  · simp at ended
  · rename_i unfinished
    cases queue with
    | nil => exact ⟨rfl, by omega⟩
    | cons first others => simp at ended

end Turns

/-! ## The invariant -/

/-- The server cannot have KEY1 yet. -/
def ServerPhase.Keyless : ServerPhase → Prop
  | .unborn => True
  | .starting => True
  | .receivingLength receiving => receiving = ⟨4, []⟩
  | .exited => True
  | _ => False

/-- What the first byte of the status tells. -/
structure StatusSound (state : Handoff) (unread : Bytes) : Prop where
  announced : state.announced = true → unread.head? = some 0
  zero : unread.head? = some 0 → state.bound = true
  other : ∀ byte, unread.head? = some byte → byte ≠ 0 → state.announced = false ∧ state.server = .exited

def Heard (state : Handoff) : Prop :=
  match state.initiator with
  | .spawning => state.toServer = [] ∧ state.toInitiator = [] ∧ state.announced = false ∧ state.server = .unborn
  | .sendingKey1 => state.toServer = [] ∧ state.toInitiator = [] ∧ state.announced = false ∧ state.server.Keyless
  | .awaitingStatus receiving =>
    receiving.size = 1 ∧ receiving.got.length ≤ 1 ∧ StatusSound state (receiving.got ++ state.toInitiator)
  | .readingLength _ => state.announced = false ∧ state.server = .exited
  | .readingMessage _ => state.announced = false ∧ state.server = .exited
  | .closing none => state.bound = true
  | .writingPid => state.bound = true
  | .returned => state.bound = true ∧ state.pidfile = state.pid.map toString
  | _ => True

structure HandoffSound (state : Handoff) : Prop where
  served : state.served = true → state.announced = true
  announced : state.announced = true →
    state.bound = true ∧ (state.server = .announced ∨ state.server = .serving ∨ state.server = .exited)
  ready : state.server = .ready → state.bound = true
  serving : state.server = .announced → state.announced = true
  known : state.initiator = .spawning ∨ (∃ failure, state.initiator = .raised failure) ∨ state.pid.isSome = true
  heard : Heard state

/-- The exchange has not failed after the server has announced itself. -/
def Quiet (state : Handoff) : Prop :=
  (∀ failure, state.initiator = .closing (some failure) → state.announced = false) ∧
    ∀ failure, state.initiator = .raised failure → state.announced = false

variable {state : Handoff}

/-- Steps of the initiator that leave the server and its marks. -/
theorem HandoffSound.of_initiator (sound : HandoffSound state) {initiator : InitiatorPhase}
    {toServer toInitiator : Bytes}
    (known : state.pid.isSome = true)
    (heard : Heard { state with initiator := initiator, toServer := toServer, toInitiator := toInitiator }) :
    HandoffSound { state with initiator := initiator, toServer := toServer, toInitiator := toInitiator } :=
  ⟨sound.served, sound.announced, sound.ready, sound.serving, .inr (.inr known), heard⟩

theorem HandoffSound.pid_isSome (sound : HandoffSound state) (spawned : state.initiator ≠ .spawning)
    (going : ∀ failure, state.initiator ≠ .raised failure) : state.pid.isSome = true := by
  cases sound.known with
  | inl spawning => exact absurd spawning spawned
  | inr later =>
    cases later with
    | inl raised =>
      obtain ⟨failure, raised⟩ := raised
      exact absurd raised (going failure)
    | inr known => exact known

/-- What a status of one byte leads to. -/
theorem heard_readStatus {status : Bytes} (size : status.length = 1)
    (statusSound : StatusSound state (status ++ state.toInitiator)) :
    Heard { state with initiator := readStatus status } ∧
      (∀ failure, readStatus status = .closing (some failure) → state.announced = false) := by
  cases status with
  | nil => cases size
  | cons byte rest =>
    obtain rfl : rest = [] := List.eq_nil_of_length_eq_zero (by simpa using size)
    rw [readStatus]
    by_cases ok : [byte] = STATUS_OK
    · rw [if_pos ok]
      cases ok
      exact ⟨statusSound.zero rfl, fun failure same => by cases same⟩
    · rw [if_neg ok]
      have nonzero : byte ≠ 0 := by
        rintro rfl
        exact ok rfl
      obtain ⟨silent, exited⟩ := statusSound.other byte rfl nonzero
      split
      · exact ⟨⟨silent, exited⟩, fun failure same => by cases same⟩
      · exact ⟨trivial, fun _ _ => silent⟩

/-- Phases of the initiator in which nothing has failed. -/
theorem quiet_of_going (closing : ∀ failure, state.initiator ≠ .closing (some failure))
    (raised : ∀ failure, state.initiator ≠ .raised failure) : Quiet state :=
  ⟨fun failure same => absurd same (closing failure), fun failure same => absurd same (raised failure)⟩

theorem quiet_of_silent (silent : state.announced = false) : Quiet state := ⟨fun _ _ => silent, fun _ _ => silent⟩

/-- A reader of an error report: the server has exited without announcing itself. -/
theorem HandoffSound.reading (sound : HandoffSound state) (known : state.pid.isSome = true)
    (silent : state.announced = false) {initiator : InitiatorPhase} {toInitiator : Bytes}
    (heard : Heard { state with initiator := initiator, toInitiator := toInitiator }) :
    HandoffSound { state with initiator := initiator, toInitiator := toInitiator } ∧
      (Quiet state → Quiet { state with initiator := initiator, toInitiator := toInitiator }) :=
  ⟨sound.of_initiator known heard, fun _ => quiet_of_silent silent⟩

theorem HandoffSound.receive (sound : HandoffSound state) (count : Nat) :
    HandoffSound (initiatorStep key1 state (.receive count)) ∧
      (Quiet state → Quiet (initiatorStep key1 state (.receive count))) := by
  obtain ⟨initiator, server, toServer, toInitiator, pid, pidfile, bound, announced, served⟩ := state
  cases initiator with
  | awaitingStatus receiving =>
    obtain ⟨size, short, statusSound⟩ := sound.heard
    have known := sound.pid_isSome (by simp) (by simp)
    simp only [initiatorStep]
    split
    · exact ⟨sound, id⟩
    · rename_i closed
      obtain ⟨empty, unfinished⟩ := turn_ended (.inr closed)
      have silent : announced = false := by
        cases announced with
        | false => rfl
        | true =>
          have first := statusSound.announced rfl
          have none : receiving.got = [] := List.eq_nil_of_length_eq_zero (by omega)
          rw [none, show toInitiator = [] from empty] at first
          cases first
      exact ⟨sound.of_initiator known trivial, fun _ => quiet_of_silent silent⟩
    -- what is still unread is the same, however it is divided
    · rename_i next queue more
      obtain ⟨sameSize, shorter, conserved⟩ := turn_more more
      have unread : StatusSound _ (next.got ++ queue) := conserved ▸ statusSound
      exact ⟨sound.of_initiator known ⟨sameSize.trans size, by omega, unread.announced, unread.zero, unread.other⟩,
        fun _ => quiet_of_going (by simp) (by simp)⟩
    · rename_i status whole
      obtain ⟨rfl, long⟩ := turn_whole whole
      obtain ⟨heard, refused⟩ := @heard_readStatus _ receiving.got (by omega) statusSound
      refine ⟨sound.of_initiator known heard, fun _ => ⟨refused, fun failure same => ?_⟩⟩
      have phase : readStatus receiving.got = .raised failure := same
      rw [readStatus] at phase
      split at phase
      · cases phase
      · split at phase
        · cases phase
        · cases phase
  | readingLength receiving =>
    obtain ⟨silent, exited⟩ := sound.heard
    have known := sound.pid_isSome (by simp) (by simp)
    simp only [initiatorStep]
    split
    · exact ⟨sound, id⟩
    · exact sound.reading known silent trivial
    · exact sound.reading known silent ⟨silent, exited⟩
    · exact sound.reading known silent ⟨silent, exited⟩
  | readingMessage receiving =>
    obtain ⟨silent, exited⟩ := sound.heard
    have known := sound.pid_isSome (by simp) (by simp)
    simp only [initiatorStep]
    split
    · exact ⟨sound, id⟩
    · exact sound.reading known silent trivial
    · exact sound.reading known silent ⟨silent, exited⟩
    · rename_i bytes whole
      refine sound.reading known silent ?_
      rw [readMessage]
      split
      · trivial
      · trivial
  | closing failure =>
    cases failure with
    | none => exact ⟨sound, id⟩
    | some failure => exact ⟨sound, id⟩
  | _ => exact ⟨sound, id⟩

/-- The step lemma of the initiator: it stays sound, and quiet unless the timeout fires late or
the pidfile cannot be written. -/
theorem HandoffSound.initiatorStep (sound : HandoffSound state) (event : InitiatorEvent) :
    HandoffSound (initiatorStep key1 state event) ∧
      (Quiet state → (event = .timeout → state.announced = false) → event ≠ .writePid false →
        Quiet (initiatorStep key1 state event)) := by
  cases event with
  | receive count =>
    obtain ⟨kept, quiet⟩ := sound.receive count
    exact ⟨kept, fun before _ _ => quiet before⟩
  | spawn pid =>
    obtain ⟨initiator, server, toServer, toInitiator, unknown, pidfile, bound, announced, served⟩ := state
    cases initiator with
    | spawning =>
      obtain ⟨noKey, noStatus, silent, unborn⟩ := sound.heard
      have silent : announced = false := silent
      refine ⟨⟨sound.served, ?_, ?_, ?_, .inr (.inr rfl), noKey, noStatus, silent, trivial⟩, fun _ _ _ =>
        quiet_of_going (by simp [Initiator.initiatorStep]) (by simp [Initiator.initiatorStep])⟩
      · intro loud
        exact (Bool.false_ne_true (silent.symm.trans loud)).elim
      · intro ready
        cases ready
      · intro serving
        cases serving
    | closing failure => cases failure <;> exact ⟨sound, fun quiet _ _ => quiet⟩
    | _ => exact ⟨sound, fun quiet _ _ => quiet⟩
  | spawnFails =>
    obtain ⟨initiator, server, toServer, toInitiator, pid, pidfile, bound, announced, served⟩ := state
    cases initiator with
    | spawning =>
      obtain ⟨_, _, silent, _⟩ := sound.heard
      exact ⟨⟨sound.served, sound.announced, sound.ready, sound.serving, .inr (.inl ⟨_, rfl⟩), trivial⟩,
        fun _ _ _ => quiet_of_silent silent⟩
    | closing failure => cases failure <;> exact ⟨sound, fun quiet _ _ => quiet⟩
    | _ => exact ⟨sound, fun quiet _ _ => quiet⟩
  | sendKey1 =>
    obtain ⟨initiator, server, toServer, toInitiator, pid, pidfile, bound, announced, served⟩ := state
    cases initiator with
    | sendingKey1 =>
      obtain ⟨noKey, noStatus, silent, keyless⟩ := sound.heard
      have known := sound.pid_isSome (by simp) (by simp)
      have silent : announced = false := silent
      have nothing : toInitiator = [] := noStatus
      simp only [Initiator.initiatorStep]
      split
      · exact ⟨sound.of_initiator known trivial, fun _ _ _ => quiet_of_silent silent⟩
      · split
        · refine ⟨sound.of_initiator known ⟨rfl, Nat.zero_le _, ?_⟩, fun _ _ _ => quiet_of_silent silent⟩
          rw [nothing]
          refine ⟨fun loud => ?_, fun first => ?_, fun byte first => ?_⟩
          · exact (Bool.false_ne_true (silent.symm.trans loud)).elim
          · cases first
          · cases first
        · exact ⟨sound.of_initiator known trivial, fun _ _ _ => quiet_of_silent silent⟩
    | closing failure => cases failure <;> exact ⟨sound, fun quiet _ _ => quiet⟩
    | _ => exact ⟨sound, fun quiet _ _ => quiet⟩
  | timeout =>
    obtain ⟨initiator, server, toServer, toInitiator, pid, pidfile, bound, announced, served⟩ := state
    cases initiator with
    | awaitingStatus receiving =>
      have known := sound.pid_isSome (by simp) (by simp)
      exact ⟨sound.of_initiator known trivial, fun _ early _ => quiet_of_silent (early rfl)⟩
    | readingLength receiving =>
      have known := sound.pid_isSome (by simp) (by simp)
      exact ⟨sound.of_initiator known trivial, fun _ early _ => quiet_of_silent (early rfl)⟩
    | readingMessage receiving =>
      have known := sound.pid_isSome (by simp) (by simp)
      exact ⟨sound.of_initiator known trivial, fun _ early _ => quiet_of_silent (early rfl)⟩
    | closing failure => cases failure <;> exact ⟨sound, fun quiet _ _ => quiet⟩
    | _ => exact ⟨sound, fun quiet _ _ => quiet⟩
  | close =>
    obtain ⟨initiator, server, toServer, toInitiator, pid, pidfile, bound, announced, served⟩ := state
    cases initiator with
    | closing failure =>
      have known := sound.pid_isSome (by simp) (by simp)
      cases failure with
      | none =>
        exact ⟨sound.of_initiator known sound.heard, fun _ _ _ =>
          quiet_of_going (by simp [Initiator.initiatorStep]) (by simp [Initiator.initiatorStep])⟩
      | some failure =>
        exact ⟨sound.of_initiator known trivial, fun quiet _ _ => quiet_of_silent (quiet.1 failure rfl)⟩
    | _ => exact ⟨sound, fun quiet _ _ => quiet⟩
  | writePid written =>
    obtain ⟨initiator, server, toServer, toInitiator, pid, pidfile, bound, announced, served⟩ := state
    cases initiator with
    | writingPid =>
      have known := sound.pid_isSome (by simp) (by simp)
      cases written with
      | true =>
        exact ⟨⟨sound.served, sound.announced, sound.ready, sound.serving, .inr (.inr known), sound.heard, rfl⟩,
          fun _ _ _ => quiet_of_going (by simp [Initiator.initiatorStep]) (by simp [Initiator.initiatorStep])⟩
      | false => exact ⟨sound.of_initiator known trivial, fun _ _ written => absurd rfl written⟩
    | closing failure => cases failure <;> exact ⟨sound, fun quiet _ _ => quiet⟩
    | _ => exact ⟨sound, fun quiet _ _ => quiet⟩

/-! ## Steps of the server -/

/-- Steps of the server that send nothing. -/
theorem Heard.of_server {server : ServerPhase} {toServer : Bytes} {bound served : Bool} (heard : Heard state)
    (born : state.initiator ≠ .spawning) (keyless : state.initiator = .sendingKey1 → toServer = [] ∧ server.Keyless)
    (exited : state.server = .exited → server = .exited) (more : state.bound = true → bound = true) :
    Heard { state with server := server, toServer := toServer, bound := bound, served := served } := by
  obtain ⟨initiator, before, queue, toInitiator, pid, pidfile, wasBound, announced, wasServed⟩ := state
  cases initiator with
  | spawning => exact absurd rfl born
  | sendingKey1 =>
    obtain ⟨_, noStatus, silent, _⟩ := heard
    obtain ⟨noKey, keyless⟩ := keyless rfl
    exact ⟨noKey, noStatus, silent, keyless⟩
  | awaitingStatus receiving =>
    obtain ⟨size, short, statusSound⟩ := heard
    refine ⟨size, short, statusSound.announced, fun first => more (statusSound.zero first), ?_⟩
    intro byte first nonzero
    obtain ⟨silent, gone⟩ := statusSound.other byte first nonzero
    exact ⟨silent, exited gone⟩
  | readingLength receiving => exact ⟨heard.1, exited heard.2⟩
  | readingMessage receiving => exact ⟨heard.1, exited heard.2⟩
  | closing failure =>
    cases failure with
    | none => exact more heard
    | some failure => trivial
  | writingPid => exact more heard
  | returned => exact ⟨more heard.1, heard.2⟩
  | raised failure => trivial

/-- Steps of the server that send something, which it does when it has KEY1. -/
theorem Heard.of_send {server : ServerPhase} {announced : Bool} {bytes : Bytes} (heard : Heard state)
    (keyed : ¬state.server.Keyless)
    (told : ∀ unread, StatusSound state unread → StatusSound
      { state with server := server, announced := announced, toInitiator := state.toInitiator ++ bytes }
      (unread ++ bytes)) :
    Heard { state with server := server, announced := announced, toInitiator := state.toInitiator ++ bytes } := by
  obtain ⟨initiator, before, queue, toInitiator, pid, pidfile, bound, wasAnnounced, served⟩ := state
  have gone : before = .exited → False := by
    rintro rfl
    exact keyed trivial
  -- without KEY1 there is no server that sends, and an exited one sends nothing
  cases initiator with
  | spawning =>
    obtain ⟨_, _, _, unborn⟩ := heard
    obtain rfl : before = .unborn := unborn
    exact absurd trivial keyed
  | sendingKey1 => exact absurd heard.2.2.2 keyed
  | awaitingStatus receiving =>
    obtain ⟨size, short, statusSound⟩ := heard
    refine ⟨size, short, ?_⟩
    show StatusSound _ (receiving.got ++ (toInitiator ++ bytes))
    rw [← List.append_assoc]
    exact told _ statusSound
  | readingLength receiving => exact (gone heard.2).elim
  | readingMessage receiving => exact (gone heard.2).elim
  | closing failure =>
    cases failure with
    | none => exact heard
    | some failure => trivial
  | writingPid => exact heard
  | returned => exact heard
  | raised failure => trivial

/-- The status of a server that is still running and has not announced itself. -/
theorem StatusSound.unread_nil_or {unread : Bytes} (statusSound : StatusSound state unread)
    (alive : state.server ≠ .exited) : unread = [] ∨ unread.head? = some 0 := by
  cases unread with
  | nil => exact .inl rfl
  | cons byte rest =>
    -- another status would be the last thing of a server that has exited
    by_cases zero : byte = 0
    · exact .inr (by rw [zero]; rfl)
    · exact absurd (statusSound.other byte rfl zero).2 alive

/-- A server on its way up has not announced itself. -/
theorem HandoffSound.silent (sound : HandoffSound state) (announced : state.server ≠ .announced)
    (serving : state.server ≠ .serving) (exited : state.server ≠ .exited) : state.announced = false := by
  cases loud : state.announced with
  | false => rfl
  | true =>
    rcases (sound.announced loud).2 with phase | phase | phase
    · exact absurd phase announced
    · exact absurd phase serving
    · exact absurd phase exited

/-- There is no server before it is spawned. -/
theorem HandoffSound.spawned (sound : HandoffSound state) (born : state.server ≠ .unborn) :
    state.initiator ≠ .spawning := by
  intro spawning
  have heard := sound.heard
  rw [Heard, spawning] at heard
  exact born heard.2.2.2

/-- Steps of a server on its way up. -/
theorem HandoffSound.of_server (sound : HandoffSound state) (silent : state.announced = false)
    (born : state.server ≠ .unborn) (alive : state.server ≠ .exited) {server : ServerPhase} {toServer : Bytes}
    {bound : Bool} (keyless : state.initiator = .sendingKey1 → toServer = [] ∧ server.Keyless)
    (more : state.bound = true → bound = true) (ready : server = .ready → bound = true)
    (quiet : server ≠ .announced) :
    HandoffSound { state with server := server, toServer := toServer, bound := bound } ∧
      (Quiet state → Quiet { state with server := server, toServer := toServer, bound := bound }) := by
  refine ⟨⟨sound.served, fun loud => ?_, ready, fun phase => absurd phase quiet, sound.known, ?_⟩, fun before => before⟩
  · exact (Bool.false_ne_true (silent.symm.trans loud)).elim
  · exact sound.heard.of_server (sound.spawned born) keyless (fun gone => absurd gone alive) more

theorem HandoffSound.die (sound : HandoffSound state) (born : state.server ≠ .unborn) :
    HandoffSound { state with server := .exited } ∧ (Quiet state → Quiet { state with server := .exited }) := by
  refine ⟨⟨sound.served, fun loud => ⟨(sound.announced loud).1, .inr (.inr rfl)⟩, fun phase => (by cases phase),
    fun phase => (by cases phase), sound.known, ?_⟩, fun before => before⟩
  refine sound.heard.of_server (sound.spawned born) (fun sending => ?_) (fun _ => rfl) id
  have heard := sound.heard
  rw [Heard, sending] at heard
  exact ⟨heard.1, trivial⟩

/-- Without KEY1 there is nothing that an initiator could still have to send. -/
theorem HandoffSound.not_sending (sound : HandoffSound state) (keyed : ¬state.server.Keyless) :
    state.initiator ≠ .sendingKey1 := by
  intro sending
  have heard := sound.heard
  rw [Heard, sending] at heard
  exact keyed heard.2.2.2

theorem HandoffSound.report (sound : HandoffSound state) {message : String}
    (reporting : state.server = .reporting message) (count : Nat) : HandoffSound (serverStep state (.proceed count)) ∧
      (Quiet state → Quiet (serverStep state (.proceed count))) := by
  obtain ⟨initiator, server, toServer, toInitiator, pid, pidfile, bound, announced, served⟩ := state
  obtain rfl : server = .reporting message := reporting
  have died := sound.die (by simp)
  simp only [serverStep]
  split
  · exact died
  · rename_i length packed
    split
    · have silent : announced = false := sound.silent (by simp) (by simp) (by simp)
      refine ⟨⟨sound.served, fun loud => ?_, fun phase => (by cases phase), fun phase => (by cases phase), sound.known,
        ?_⟩, fun before => before⟩
      · exact (Bool.false_ne_true (silent.symm.trans loud)).elim
      · refine sound.heard.of_send (fun keyless => keyless) fun unread statusSound => ?_
        -- the report is the first thing sent, or stands behind a zero that was
        have before := statusSound.unread_nil_or (by simp)
        refine ⟨fun loud => ?_, fun first => ?_, fun byte first nonzero => ⟨silent, rfl⟩⟩
        · exact (Bool.false_ne_true (silent.symm.trans loud)).elim
        · cases before with
          | inl empty =>
            rw [empty] at first
            cases first
          | inr zero => exact statusSound.zero zero
    · exact died

theorem HandoffSound.announce (sound : HandoffSound state) (ready : state.server = .ready) (count : Nat) :
    HandoffSound (serverStep state (.proceed count)) ∧
      (Quiet state → (∀ failure, state.initiator ≠ .closing (some failure)) →
        Quiet (serverStep state (.proceed count))) := by
  obtain ⟨initiator, server, toServer, toInitiator, pid, pidfile, bound, announced, served⟩ := state
  obtain rfl : server = .ready := ready
  have isBound : bound = true := sound.ready rfl
  simp only [serverStep]
  split
  · rename_i opened
    refine ⟨⟨fun _ => rfl, fun _ => ⟨isBound, .inl rfl⟩, fun phase => (by cases phase), fun _ => rfl, sound.known, ?_⟩,
      fun before orderly => ⟨fun failure same => absurd same (orderly failure), fun failure same => ?_⟩⟩
    · refine sound.heard.of_send (fun keyless => keyless) fun unread statusSound => ?_
      have first : (unread ++ STATUS_OK).head? = some 0 := by
        cases statusSound.unread_nil_or (by simp) with
        | inl empty =>
          rw [empty]
          rfl
        | inr zero => rw [List.head?_append, zero, Option.some_or]
      refine ⟨fun _ => first, fun _ => isBound, fun byte other nonzero => ?_⟩
      rw [first] at other
      exact absurd (Option.some.inj other).symm nonzero
    · -- the end of an initiator that has raised is closed
      obtain rfl : initiator = .raised failure := same
      cases opened
  · exact And.imp_right (fun quiet before _ => quiet before) (sound.die (by simp))

/-- Steps of a server that has KEY1 and is on its way up. -/
theorem HandoffSound.of_keyed (sound : HandoffSound state) (keyed : ¬state.server.Keyless)
    (silent : state.announced = false) {server : ServerPhase} {toServer : Bytes} {bound : Bool}
    (more : state.bound = true → bound = true) (ready : server = .ready → bound = true) (quiet : server ≠ .announced) :
    HandoffSound { state with server := server, toServer := toServer, bound := bound } ∧
      (Quiet state → Quiet { state with server := server, toServer := toServer, bound := bound }) := by
  have born : state.server ≠ .unborn := by
    intro unborn
    rw [unborn] at keyed
    exact keyed trivial
  have alive : state.server ≠ .exited := by
    intro exited
    rw [exited] at keyed
    exact keyed trivial
  exact sound.of_server silent born alive (fun sending => absurd sending (sound.not_sending keyed)) more ready quiet

/-- A server without KEY1: the queue it reads may be empty, and then stays so. -/
theorem HandoffSound.receiveKey1 (sound : HandoffSound state) {receiving : Receiving}
    (phase : state.server = .receivingLength receiving) (count : Nat) :
    HandoffSound (serverStep state (.proceed count)) ∧
      (Quiet state → Quiet (serverStep state (.proceed count))) := by
  obtain ⟨initiator, server, toServer, toInitiator, pid, pidfile, bound, announced, served⟩ := state
  obtain rfl : server = .receivingLength receiving := phase
  have silent : announced = false := sound.silent (by simp) (by simp) (by simp)
  simp only [serverStep]
  split
  · exact ⟨sound, id⟩
  · exact sound.die (by simp)
  · rename_i next queue more
    refine sound.of_server silent (by simp) (by simp) (fun sending => ?_) id (fun phase => (by cases phase)) (by simp)
    -- before KEY1 has been sent there is nothing to take from the queue
    obtain rfl : initiator = .sendingKey1 := sending
    obtain rfl : toServer = [] := sound.heard.1
    unfold Receiving.turn at more
    split at more
    · cases more
    · cases more
  · rename_i length whole
    refine sound.of_server silent (by simp) (by simp) (fun sending => ?_) id (fun phase => (by cases phase)) (by simp)
    obtain rfl : initiator = .sendingKey1 := sending
    obtain ⟨_, long⟩ := turn_whole whole
    have fresh : receiving = ⟨4, []⟩ := sound.heard.2.2.2
    rw [fresh] at long
    cases long

/-- The server dies. -/
theorem HandoffSound.dies (sound : HandoffSound state) :
    HandoffSound (serverStep state .die) ∧ (Quiet state → Quiet (serverStep state .die)) := by
  obtain ⟨initiator, server, toServer, toInitiator, pid, pidfile, bound, announced, served⟩ := state
  cases server with
  | unborn => exact ⟨sound, id⟩
  | loading left => cases left <;> exact sound.die (by simp)
  | _ => exact sound.die (by simp)

/-- An exception in the server: with KEY1 there is a report to make, without it there is none. -/
theorem HandoffSound.fails (sound : HandoffSound state) (message : String) :
    HandoffSound (serverStep state (.fail message)) ∧ (Quiet state → Quiet (serverStep state (.fail message))) := by
  obtain ⟨initiator, server, toServer, toInitiator, pid, pidfile, bound, announced, served⟩ := state
  cases server with
  | starting => exact sound.die (by simp)
  | loading left =>
    cases left with
    | nil => exact ⟨sound, id⟩
    | cons name left =>
      have silent : announced = false := sound.silent (by simp) (by simp) (by simp)
      exact sound.of_keyed id silent id (fun phase => (by cases phase)) (by simp)
  | loadingCertificates =>
    have silent : announced = false := sound.silent (by simp) (by simp) (by simp)
    exact sound.of_keyed id silent id (fun phase => (by cases phase)) (by simp)
  | binding =>
    have silent : announced = false := sound.silent (by simp) (by simp) (by simp)
    exact sound.of_keyed id silent id (fun phase => (by cases phase)) (by simp)
  | _ => exact ⟨sound, id⟩

/-- The step lemma of the server: it stays sound, and quiet unless the server announces itself
after the exchange has failed. -/
theorem HandoffSound.serverStep (sound : HandoffSound state) (event : ServerEvent) :
    HandoffSound (serverStep state event) ∧
      (Quiet state →
        (∀ count failure, event = .proceed count → state.server = .ready → state.initiator ≠ .closing (some failure)) →
        Quiet (serverStep state event)) := by
  have quietly : ∀ {next : Handoff}, HandoffSound next ∧ (Quiet state → Quiet next) → HandoffSound next ∧ (Quiet state →
      (∀ count failure, event = .proceed count → state.server = .ready → state.initiator ≠ .closing (some failure)) →
      Quiet next) :=
    fun kept => ⟨kept.1, fun before _ => kept.2 before⟩
  cases event with
  | die => exact quietly sound.dies
  | fail message => exact quietly (sound.fails message)
  | proceed count =>
    obtain ⟨initiator, server, toServer, toInitiator, pid, pidfile, bound, announced, served⟩ := state
    cases server with
    | unborn => exact quietly ⟨sound, id⟩
    | serving => exact quietly ⟨sound, id⟩
    | exited => exact quietly ⟨sound, id⟩
    | receivingLength receiving => exact quietly (sound.receiveKey1 rfl count)
    | reporting message => exact quietly (sound.report rfl count)
    | starting =>
      have silent : announced = false := sound.silent (by simp) (by simp) (by simp)
      refine quietly (sound.of_server silent (by simp) (by simp) (fun sending => ?_) id (fun phase => (by cases phase))
        (by simp))
      obtain rfl : initiator = .sendingKey1 := sending
      exact ⟨sound.heard.1, rfl⟩
    | announced =>
      have loud : announced = true := sound.serving rfl
      obtain ⟨isBound, _⟩ := sound.announced loud
      have spawned : initiator ≠ .spawning := sound.spawned (by simp)
      have sent : initiator ≠ .sendingKey1 := sound.not_sending fun keyless => keyless
      exact ⟨⟨fun _ => loud, fun _ => ⟨isBound, .inr (.inl rfl)⟩, fun phase => (by cases phase),
        fun phase => (by cases phase), sound.known,
        sound.heard.of_server spawned (fun sending => absurd sending sent) (fun gone => (by cases gone)) id⟩,
        fun before _ => before⟩
    | ready =>
      obtain ⟨kept, quiet⟩ := sound.announce rfl count
      exact ⟨kept, fun before orderly => quiet before fun failure => orderly count failure rfl rfl⟩
    | receivingKey1 receiving =>
      have silent : announced = false := sound.silent (by simp) (by simp) (by simp)
      simp only [Initiator.serverStep]
      split
      · exact quietly ⟨sound, id⟩
      · exact quietly (sound.die (by simp))
      · exact quietly (sound.of_keyed id silent id (fun phase => (by cases phase)) (by simp))
      · split
        · exact quietly (sound.of_keyed id silent id (fun phase => (by cases phase)) (by simp))
        · exact quietly (sound.die (by simp))
    | loading left =>
      have silent : announced = false := sound.silent (by simp) (by simp) (by simp)
      cases left with
      | nil => exact quietly (sound.of_keyed id silent id (fun phase => (by cases phase)) (by simp))
      | cons name left => exact quietly (sound.of_keyed id silent id (fun phase => (by cases phase)) (by simp))
    | loadingCertificates =>
      have silent : announced = false := sound.silent (by simp) (by simp) (by simp)
      exact quietly (sound.of_keyed id silent id (fun phase => (by cases phase)) (by simp))
    | binding =>
      have silent : announced = false := sound.silent (by simp) (by simp) (by simp)
      exact quietly (sound.of_keyed id silent (fun _ => rfl) (fun _ => rfl) (by simp))

end Steps

/-! ## Runs -/

theorem handoffSound_before (pidfile : Option String) : HandoffSound (beforeHandoff pidfile) where
  served := fun served => (by cases served)
  announced := fun loud => (by cases loud)
  ready := fun phase => (by cases phase)
  serving := fun phase => (by cases phase)
  known := .inl rfl
  heard := ⟨rfl, rfl, rfl, rfl⟩

theorem returnsBound_of_sound {state : Handoff} (sound : HandoffSound state) : ReturnsBound state := by
  intro returned
  have heard := sound.heard
  have known := sound.pid_isSome (by rw [returned]; simp) (by rw [returned]; simp)
  rw [Heard, returned] at heard
  obtain ⟨pid, found⟩ := Option.isSome_iff_exists.mp known
  exact ⟨heard.1, pid, found, by rw [heard.2, found]; rfl⟩

theorem raisesUnserved_of_quiet {state : Handoff} (sound : HandoffSound state) (quiet : Quiet state) :
    RaisesUnserved state := by
  intro failure raised
  cases served : state.served with
  | false => rfl
  | true =>
    have silent := quiet.2 failure raised
    rw [sound.served served] at silent
    cases silent

/-- In every interleaving a normal return means that the port was bound before and that the
pidfile names the server.  If besides the timeout fires only before the server announces
itself, the server does not announce itself between a failed exchange and the close, and the
pidfile is written, then an exception means that the server is never served. -/
theorem handoff_agrees (key1 : String) (pidfile : Option String) (events : List HandoffEvent) :
    (∀ transition ∈ transitions (handoffStep key1) (beforeHandoff pidfile) events, ReturnsBound transition.after) ∧
    ((∀ transition ∈ transitions (handoffStep key1) (beforeHandoff pidfile) events, Timely transition) →
      ∀ transition ∈ transitions (handoffStep key1) (beforeHandoff pidfile) events,
        RaisesUnserved transition.after) := by
  constructor
  · have sound := @invariant_of_steps _ _ _ (handoffStep key1) HandoffSound (fun _ => True) (beforeHandoff pidfile)
      events
      (by
        rintro ⟨before, event, output, after⟩ _ sound stepped
        cases event with
        | initiator event =>
          obtain rfl : initiatorStep key1 before event = after := congrArg Prod.snd stepped
          exact (sound.initiatorStep event).1
        | server event =>
          obtain rfl : serverStep before event = after := congrArg Prod.snd stepped
          exact (sound.serverStep event).1)
      (handoffSound_before pidfile) (fun _ _ => trivial)
    exact fun transition member => returnsBound_of_sound (sound.1 transition member).2
  · intro timely
    have quiet := @invariant_of_steps _ _ _ (handoffStep key1) (fun state => HandoffSound state ∧ Quiet state) Timely
      (beforeHandoff pidfile) events
      (by
        rintro ⟨before, event, output, after⟩ timely invariant stepped
        obtain ⟨sound, quiet⟩ := invariant
        cases event with
        | initiator event =>
          obtain rfl : initiatorStep key1 before event = after := congrArg Prod.snd stepped
          obtain ⟨kept, stays⟩ := @HandoffSound.initiatorStep key1 _ sound event
          refine ⟨kept, stays quiet (fun fires => ?_) fun fails => ?_⟩
          · exact timely.timeout (by rw [fires])
          · exact timely.pidfile (by rw [fails])
        | server event =>
          obtain rfl : serverStep before event = after := congrArg Prod.snd stepped
          obtain ⟨kept, stays⟩ := sound.serverStep event
          refine ⟨kept, stays quiet fun count failure proceeds ready => ?_⟩
          exact timely.announce count failure (by rw [proceeds]) ready)
      ⟨handoffSound_before pidfile, quiet_of_silent rfl⟩ timely
    exact fun transition member =>
      raisesUnserved_of_quiet (quiet.1 transition member).2.1 (quiet.1 transition member).2.2

/-! ## Three runs -/

/-- The server gets KEY1 and comes up to where it binds its port. -/
def comingUp : List HandoffEvent :=
  [.initiator (.spawn 7), .server (.proceed 0), .initiator .sendKey1] ++ List.replicate 10 (.server (.proceed 3))

/-- The port is taken. -/
def refusedRun : List HandoffEvent :=
  comingUp ++ [.server (.fail "port taken"), .server (.proceed 0)] ++
    List.replicate 7 (.initiator (.receive 9)) ++ [.initiator .close]

/-- The timeout fires just before the server announces itself. -/
def lateRun : List HandoffEvent :=
  comingUp ++ [.server (.proceed 0), .initiator .timeout, .server (.proceed 0), .initiator .close, .server (.proceed 0)]

/-- The status arrives in time and the pidfile cannot be written. -/
def unwrittenRun : List HandoffEvent :=
  comingUp ++ [.server (.proceed 0), .server (.proceed 0), .initiator (.receive 0), .initiator (.receive 0),
    .initiator .close, .initiator (.writePid false), .server (.proceed 0)]

def afterHandoff (events : List HandoffEvent) : Handoff := run (handoffStep "k") (beforeHandoff none) events

def InitiatorPhase.hasRaised : InitiatorPhase → Bool
  | .raised _ => true
  | _ => false

/-- `Timely`, to be evaluated. -/
def isTimely (transition : Transition Handoff HandoffEvent Unit) : Bool :=
  match transition.input, transition.before.server, transition.before.initiator with
  | .initiator .timeout, _, _ => !transition.before.announced
  | .initiator (.writePid written), _, _ => written
  | .server (.proceed _), .ready, .closing (some _) => false
  | _, _, _ => true

theorem timely_of_isTimely {transition : Transition Handoff HandoffEvent Unit} (timely : isTimely transition = true) :
    Timely transition := by
  constructor
  · intro fires
    simpa only [isTimely, fires, Bool.not_eq_true'] using timely
  · intro count failure proceeds ready closing
    simp only [isTimely, proceeds, ready, closing, Bool.false_eq_true] at timely
  · intro fails
    simp only [isTimely, fails, Bool.false_eq_true] at timely

/-- The report of a taken port: the exception is right. -/
theorem handoff_agrees_refused :
    (afterHandoff refusedRun).initiator.hasRaised = true ∧
      ∀ transition ∈ transitions (handoffStep "k") (beforeHandoff none) refusedRun,
        ReturnsBound transition.after ∧ RaisesUnserved transition.after := by
  have timely : (transitions (handoffStep "k") (beforeHandoff none) refusedRun).all isTimely = true := by decide +kernel
  obtain ⟨bound, unserved⟩ := handoff_agrees "k" none refusedRun
  refine ⟨by decide +kernel, fun transition member => ⟨bound transition member, ?_⟩⟩
  exact unserved (fun other there => timely_of_isTimely (List.all_eq_true.mp timely other there)) transition member

theorem not_raisesUnserved {state : Handoff} (raised : state.initiator.hasRaised = true)
    (served : state.served = true) :
    ¬RaisesUnserved state := by
  intro unserved
  cases phase : state.initiator with
  | raised failure =>
    rw [unserved failure phase] at served
    cases served
  | _ =>
    rw [phase] at raised
    cases raised

/-- Late and unwritten, the exception is wrong. -/
theorem raised_and_served : ¬RaisesUnserved (afterHandoff lateRun) ∧ ¬RaisesUnserved (afterHandoff unwrittenRun) :=
  ⟨not_raisesUnserved (by decide +kernel) (by decide +kernel),
    not_raisesUnserved (by decide +kernel) (by decide +kernel)⟩

end SecretWeb.Initiator
