import SecretWeb.Initiator.Handoff
import SecretWeb.Python.Text

/-! # The frames of the handoff

`key_handoff.py` as sequential code over one end of a stream: `send_key1` and `receive_key1`
read what the other end has sent in whatever pieces it arrives, and then meet its ending. -/

namespace SecretWeb.Initiator

open SecretWeb.Data

open SecretWeb.Python (CodePoint encodeText codePoints encodeText_codePoints)

/-! ## Text -/

/-- The digits of `\x..`. -/
def hexDigits (byte : UInt8) : List Char := [Nat.digitChar (byte.toNat / 16), Nat.digitChar (byte.toNat % 16)]

def reprByte (quote : Char) (byte : UInt8) : List Char :=
  if byte = 9 then ['\\', 't']
  else if byte = 10 then ['\\', 'n']
  else if byte = 13 then ['\\', 'r']
  else if Char.ofNat byte.toNat = quote ∨ Char.ofNat byte.toNat = '\\' then ['\\', Char.ofNat byte.toNat]
  else if byte < 32 ∨ 127 ≤ byte then '\\' :: 'x' :: hexDigits byte
  else [Char.ofNat byte.toNat]

/-- `repr` of a bytes object; 39 is the single quote and 34 the double one. -/
def reprBytes (bytes : Bytes) : String :=
  let quote := if 39 ∈ bytes ∧ 34 ∉ bytes then '"' else '\''
  String.ofList ('b' :: quote :: bytes.flatMap (reprByte quote) ++ [quote])

/-! ## One end of a stream -/

/-- What comes after the last byte. -/
inductive Ending where
  | closed
  | reset
  | silence
  deriving DecidableEq

/-- `ConnectionError` and `TimeoutError` are `OSError`s, with `str` of the exception. -/
inductive HandoffError where
  | serverStartupError (message : String)
  | osError (text : String)
  | structError
  | unicodeEncodeError
  | unicodeDecodeError
  deriving DecidableEq

/-- What a call comes to; one that is waiting does so for good. -/
inductive Outcome (α : Type) where
  | returned (value : α)
  | raised (error : HandoffError)
  | waiting
  deriving DecidableEq

/-- `cuts` says how many bytes beyond the first each `recv` gets at most; `timed` that
`settimeout` was called. -/
structure Socket where
  bytes : Bytes
  cuts : List Nat
  ending : Ending
  written : Bytes
  timed : Bool

abbrev Exchange (α : Type) : Type := Socket → Outcome α × Socket

instance : Monad Exchange where
  pure value sock := (.returned value, sock)
  bind first next sock :=
    match first sock with
    | (.returned value, sock) => next value sock
    | (.raised error, sock) => (.raised error, sock)
    | (.waiting, sock) => (.waiting, sock)

namespace Exchange

def raise {α : Type} (error : HandoffError) : Exchange α := fun sock => (.raised error, sock)

def ofOption {α : Type} (error : HandoffError) : Option α → Exchange α
  | some value => pure value
  | none => raise error

/-- `except OSError`. -/
def exceptOSError {α : Type} (body : Exchange α) (handler : String → Exchange α) : Exchange α := fun sock =>
  match body sock with
  | (.raised (.osError text), sock) => handler text sock
  | result => result

end Exchange

namespace Socket

def settimeout : Exchange Unit := fun sock => (.returned (), { sock with timed := true })

/-- A `recv` with nothing left to give. -/
def atEnd {α : Type} (sock : Socket) : Outcome α :=
  match sock.ending with
  | .closed => .raised (.osError "socket closed before expected data was received")
  | .reset => .raised (.osError "[Errno 104] Connection reset by peer")
  -- without a timeout `recv` blocks for good
  | .silence => if sock.timed then .raised (.osError "timed out") else .waiting

end Socket

/-- What becomes of `sendall`: the other end may go away or stop reading after `count` bytes. -/
inductive Sending where
  | whole
  | broken (count : Nat) (text : String)
  | stuck (count : Nat)

def sendall (sending : Sending) (bytes : Bytes) : Exchange Unit := fun sock =>
  match sending with
  | .whole => (.returned (), { sock with written := sock.written ++ bytes })
  | .broken count text => (.raised (.osError text), { sock with written := sock.written ++ bytes.take count })
  | .stuck count =>
    (if sock.timed then .raised (.osError "timed out") else .waiting,
      { sock with written := sock.written ++ bytes.take count })

/-! ## The protocol -/

/-- The loop of `_recv_exact`: with every turn less is left to come. -/
def receiveFrom (receiving : Receiving) (sock : Socket) : Outcome Bytes × Socket :=
  match _turned : receiving.turn sock.bytes (decide (sock.ending ≠ .closed)) (sock.cuts.headD 0) with
  | .blocked => (sock.atEnd, sock)
  | .closed => (sock.atEnd, sock)
  | .more next queue => receiveFrom next { sock with bytes := queue, cuts := sock.cuts.tail }
  | .whole bytes => (.returned bytes, sock)
termination_by sock.bytes.length
decreasing_by
  obtain ⟨piece, nonempty, taken, _⟩ := turn_piece _turned
  have positive := List.length_pos_iff.mpr nonempty
  simp only [taken, List.length_append]
  omega

def recvExact (size : Nat) : Exchange Bytes := receiveFrom ⟨size, []⟩

/-- `_LENGTH_PREFIX.pack(len(payload)) + payload`. -/
def lengthPrefixed (payload : Bytes) : Exchange Bytes :=
  .ofOption .structError ((packLength payload.length).map (· ++ payload))

/-- `send_key1` with the status in its hands. -/
def readReport (status : Bytes) : Exchange Unit := do
  if status = STATUS_OK then return ()
  else if status = STATUS_ERR then
    let rawLength ← recvExact 4
    let bytes ← recvExact (ofBigEndian rawLength)
    let message ← .ofOption .unicodeDecodeError (decodeUtf8 bytes)
    .raise (.serverStartupError message)
  else .raise (.serverStartupError ("unexpected status byte from server: " ++ reprBytes status))

/-- The `try` of `send_key1`. -/
def awaitStatus : Exchange Bytes :=
  (recvExact 1).exceptOSError fun text =>
    .raise (.serverStartupError ("server did not report a startup status: " ++ text))

def sendKey1 (sending : Sending) (key1 : List CodePoint) : Exchange Unit := do
  let payload ← .ofOption .unicodeEncodeError (encodeText key1)
  let message ← lengthPrefixed payload
  sendall sending message
  -- the timeout is set only now: `sendall` may block
  Socket.settimeout
  let status ← awaitStatus
  readReport status

def receiveKey1 : Exchange String := do
  let rawLength ← recvExact 4
  let payload ← recvExact (ofBigEndian rawLength)
  .ofOption .unicodeDecodeError (decodeUtf8 payload)

def sendReady (sending : Sending) : Exchange Unit := sendall sending STATUS_OK

def sendStartupError (sending : Sending) (message : List CodePoint) : Exchange Unit := do
  let payload ← .ofOption .unicodeEncodeError (encodeText message)
  let prefixed ← lengthPrefixed payload
  sendall sending (STATUS_ERR ++ prefixed)

/-! ## Calls in a row -/

section Calls

variable {α β γ : Type} {first : Exchange α} {next : α → Exchange β} {sock after : Socket}

theorem bind_apply :
    (first >>= next) sock =
      match first sock with
      | (.returned value, sock) => next value sock
      | (.raised error, sock) => (.raised error, sock)
      | (.waiting, sock) => (.waiting, sock) := rfl

theorem bind_returned {value : α} (ended : first sock = (.returned value, after)) :
    (first >>= next) sock = next value after := by
  rw [bind_apply, ended]

theorem bind_raised {error : HandoffError} (ended : first sock = (.raised error, after)) :
    (first >>= next) sock = (.raised error, after) := by
  rw [bind_apply, ended]

theorem bind_waiting (ended : first sock = (.waiting, after)) : (first >>= next) sock = (.waiting, after) := by
  rw [bind_apply, ended]

/-- At the end of the stream the calls that would follow are not made. -/
theorem bind_atEnd {ended : Socket} (ends : first sock = (ended.atEnd, after)) :
    (first >>= next) sock = (ended.atEnd, after) := by
  unfold Socket.atEnd at ends ⊢
  cases ending : ended.ending with
  | closed =>
    rw [ending] at ends
    exact bind_raised ends
  | reset =>
    rw [ending] at ends
    exact bind_raised ends
  | silence =>
    rw [ending] at ends
    cases timed : ended.timed with
    | false =>
      rw [timed] at ends
      exact bind_waiting ends
    | true =>
      rw [timed] at ends
      exact bind_raised ends

theorem bind_assoc (last : β → Exchange γ) :
    (first >>= next) >>= last = first >>= fun value => next value >>= last := by
  funext sock
  rw [bind_apply, bind_apply, bind_apply]
  cases first sock with
  | mk outcome after => cases outcome <;> rfl

end Calls

/-! ## Receiving -/

/-- The loop comes to an end in one of two ways: with all it wants, or at the end of a stream
that has less. -/
theorem receiveFrom_cases (receiving : Receiving) (sock : Socket) (fits : receiving.got.length ≤ receiving.size) :
    (∃ piece more left, sock.bytes = piece ++ more ∧ receiving.got.length + piece.length = receiving.size ∧
      receiveFrom receiving sock = (.returned (receiving.got ++ piece), { sock with bytes := more, cuts := left })) ∨
    (receiving.got.length + sock.bytes.length < receiving.size ∧
      ∃ left, receiveFrom receiving sock = (sock.atEnd, { sock with bytes := [], cuts := left })) := by
  fun_induction receiveFrom receiving sock with
  | case1 receiving sock blocked =>
    obtain ⟨empty, unfinished⟩ := turn_ended (.inl blocked)
    refine .inr ⟨?_, sock.cuts, ?_⟩
    · rw [empty]
      exact unfinished
    · rw [← empty]
  | case2 receiving sock closed =>
    obtain ⟨empty, unfinished⟩ := turn_ended (.inr closed)
    refine .inr ⟨?_, sock.cuts, ?_⟩
    · rw [empty]
      exact unfinished
    · rw [← empty]
  | case3 receiving sock next queue more inductionHypothesis =>
    obtain ⟨piece, _, taken, rfl, shorter⟩ := turn_piece more
    rw [taken]
    cases inductionHypothesis shorter with
    | inl whole =>
      obtain ⟨others, more, left, split, size, ended⟩ := whole
      refine .inl ⟨piece ++ others, more, left, ?_, ?_, ?_⟩
      · rw [List.append_assoc, ← split]
      · rw [← size, List.length_append, List.length_append, Nat.add_assoc]
      · rw [ended, List.append_assoc]
    | inr short =>
      obtain ⟨less, left, ended⟩ := short
      refine .inr ⟨?_, left, ended⟩
      simpa only [List.length_append, Nat.add_assoc] using less
  | case4 receiving sock bytes whole =>
    obtain ⟨rfl, long⟩ := turn_whole whole
    refine .inl ⟨[], sock.bytes, sock.cuts, rfl, ?_, ?_⟩
    · exact Nat.le_antisymm fits long
    · rw [List.append_nil]

theorem recvExact_cases (size : Nat) (sock : Socket) :
    (∃ part more left, sock.bytes = part ++ more ∧ part.length = size ∧
      recvExact size sock = (.returned part, { sock with bytes := more, cuts := left })) ∨
    (sock.bytes.length < size ∧
      ∃ left, recvExact size sock = (sock.atEnd, { sock with bytes := [], cuts := left })) := by
  have cases := receiveFrom_cases ⟨size, []⟩ sock (Nat.zero_le size)
  simpa only [recvExact, List.length_nil, Nat.zero_add, List.nil_append] using cases

/-- Without a timeout only silence keeps a call from failing. -/
theorem atEnd_raised {sock : Socket} (ends : sock.ending ≠ .silence ∨ sock.timed = true) :
    ∃ text, ∀ α : Type, (sock.atEnd : Outcome α) = .raised (.osError text) := by
  unfold Socket.atEnd
  cases ending : sock.ending with
  | closed => exact ⟨_, fun _ => rfl⟩
  | reset => exact ⟨_, fun _ => rfl⟩
  | silence =>
    cases ends with
    | inl loud => exact absurd ending loud
    | inr timed => exact ⟨"timed out", fun _ => if_pos timed⟩

/-! ## Frames -/

/-- The stream begins with a frame that holds `text`. -/
def Framed (bytes : Bytes) (text : String) (more : Bytes) : Prop :=
  ∃ rawLength payload, bytes = rawLength ++ (payload ++ more) ∧ rawLength.length = 4 ∧
    payload.length = ofBigEndian rawLength ∧ decodeUtf8 payload = some text

theorem framed_append {rawLength rest more : Bytes} {text : String} (size : rawLength.length = 4) :
    Framed (rawLength ++ rest) text more ↔
      ∃ payload, rest = payload ++ more ∧ payload.length = ofBigEndian rawLength ∧ decodeUtf8 payload = some text := by
  constructor
  · rintro ⟨otherLength, payload, split, otherSize, long, decodes⟩
    obtain ⟨rfl, rfl⟩ := List.append_inj split (size.trans otherSize.symm)
    exact ⟨payload, rfl, long, decodes⟩
  · rintro ⟨payload, rfl, long, decodes⟩
    exact ⟨rawLength, payload, rfl, size, long, decodes⟩

/-- The first frame of a stream is all that is taken off it.  Without one, the call ends with
the stream, or on bytes that are no UTF-8. -/
theorem receiveKey1_cases (sock : Socket) :
    (∃ text more left, Framed sock.bytes text more ∧
      receiveKey1 sock = (.returned text, { sock with bytes := more, cuts := left })) ∨
    ((∀ text more, ¬Framed sock.bytes text more) ∧ ∃ after, after.written = sock.written ∧
      (receiveKey1 sock = (sock.atEnd, after) ∨ receiveKey1 sock = (.raised .unicodeDecodeError, after))) := by
  cases recvExact_cases 4 sock with
  | inr short =>
    obtain ⟨less, left, ended⟩ := short
    refine .inr ⟨?_, { sock with bytes := [], cuts := left }, rfl, .inl (bind_atEnd ended)⟩
    rintro text more ⟨rawLength, payload, split, size, _⟩
    rw [split, List.length_append] at less
    omega
  | inl prefixed =>
    obtain ⟨rawLength, rest, left, split, size, read⟩ := prefixed
    have continued : receiveKey1 sock =
        (recvExact (ofBigEndian rawLength) >>= fun payload => .ofOption .unicodeDecodeError (decodeUtf8 payload))
          { sock with bytes := rest, cuts := left } := bind_returned read
    cases recvExact_cases (ofBigEndian rawLength) { sock with bytes := rest, cuts := left } with
    | inr short =>
      obtain ⟨less, left, ended⟩ := short
      refine .inr ⟨?_, { sock with bytes := [], cuts := left }, rfl, .inl (continued.trans (bind_atEnd ended))⟩
      intro text more framed
      rw [split, framed_append size] at framed
      obtain ⟨payload, rfl, long, _⟩ := framed
      rw [List.length_append] at less
      omega
    | inl whole =>
      obtain ⟨payload, more, left, rfl, long, ended⟩ := whole
      have decoded := continued.trans (bind_returned ended)
      cases decodes : decodeUtf8 payload with
      | some text =>
        rw [decodes] at decoded
        refine .inl ⟨text, more, left, ?_, decoded⟩
        rw [split, framed_append size]
        exact ⟨payload, rfl, long, decodes⟩
      | none =>
        rw [decodes] at decoded
        refine .inr ⟨?_, { sock with bytes := more, cuts := left }, rfl, .inr decoded⟩
        intro text others framed
        rw [split, framed_append size] at framed
        obtain ⟨other, same, otherLong, otherDecodes⟩ := framed
        -- a frame has only one payload, and this one is no text
        obtain ⟨rfl, _⟩ := List.append_inj same (long.trans otherLong.symm)
        rw [decodes] at otherDecodes
        cases otherDecodes

/-- No frame, and an end to the waiting: an exception, but none of `send_key1`'s own. -/
theorem receiveKey1_fails {sock : Socket} (unframed : ∀ text more, ¬Framed sock.bytes text more)
    (ends : sock.ending ≠ .silence ∨ sock.timed = true) :
    ∃ error after, receiveKey1 sock = (.raised error, after) ∧ ∀ message, error ≠ .serverStartupError message := by
  cases receiveKey1_cases sock with
  | inl framed =>
    obtain ⟨text, more, _, framed, _⟩ := framed
    exact absurd framed (unframed text more)
  | inr failed =>
    obtain ⟨_, after, _, failed⟩ := failed
    cases failed with
    | inl ended =>
      obtain ⟨text, failed⟩ := atEnd_raised ends
      refine ⟨.osError text, after, ?_, fun message => nofun⟩
      rw [ended, failed]
    | inr undecoded => exact ⟨.unicodeDecodeError, after, undecoded, fun message => nofun⟩

/-! ## The report -/

theorem readReport_ok : readReport STATUS_OK = pure () := if_pos rfl

/-- An error frame is read as KEY1 is. -/
theorem readReport_error :
    readReport STATUS_ERR = receiveKey1 >>= fun message => .raise (.serverStartupError message) := by
  have different : STATUS_ERR ≠ STATUS_OK := by decide
  rw [readReport, if_neg different, if_pos rfl, receiveKey1, bind_assoc]
  congr
  funext rawLength
  rw [bind_assoc]

theorem readReport_other {status : Bytes} (notOk : status ≠ STATUS_OK) (notError : status ≠ STATUS_ERR) :
    readReport status =
      .raise (.serverStartupError ("unexpected status byte from server: " ++ reprBytes status)) := by
  rw [readReport, if_neg notOk, if_neg notError]

theorem awaitStatus_cases (sock : Socket) (timed : sock.timed = true) :
    (∃ status more left, sock.bytes = status :: more ∧
      awaitStatus sock = (.returned [status], { sock with bytes := more, cuts := left })) ∨
    (sock.bytes = [] ∧ ∃ message left,
      awaitStatus sock = (.raised (.serverStartupError message), { sock with bytes := [], cuts := left })) := by
  unfold awaitStatus Exchange.exceptOSError
  cases recvExact_cases 1 sock with
  | inl whole =>
    obtain ⟨part, more, left, split, size, ended⟩ := whole
    obtain ⟨status, rfl⟩ := List.length_eq_one_iff.mp size
    exact .inl ⟨status, more, left, split, by rw [ended]⟩
  | inr short =>
    obtain ⟨less, left, ended⟩ := short
    obtain ⟨text, failed⟩ := atEnd_raised (.inr timed)
    refine .inr ⟨List.eq_nil_of_length_eq_zero (by omega), "server did not report a startup status: " ++ text, left, ?_⟩
    rw [ended, failed]
    rfl

section SendKey1

variable {key1 : List CodePoint} {payload : Bytes} {sending : Sending}

theorem lengthPrefixed_of_fits (fits : payload.length < 2 ^ 32) :
    lengthPrefixed payload = pure (toBigEndian 4 payload.length ++ payload) := by
  rw [lengthPrefixed, packLength, if_pos fits]
  rfl

theorem sendKey1_of_fits (encodes : encodeText key1 = some payload) (fits : payload.length < 2 ^ 32) (sock : Socket) :
    sendKey1 sending key1 sock =
      (sendall sending (toBigEndian 4 payload.length ++ payload) >>= fun _ => Socket.settimeout >>= fun _ =>
        awaitStatus >>= readReport) sock := by
  unfold sendKey1
  rw [encodes]
  show (lengthPrefixed payload >>= _) sock = _
  rw [lengthPrefixed_of_fits fits]
  rfl

/-- What is written does not depend on what the other end does. -/
theorem sendKey1_whole (encodes : encodeText key1 = some payload) (fits : payload.length < 2 ^ 32) (sock : Socket) :
    sendKey1 .whole key1 sock =
      (awaitStatus >>= readReport)
        { sock with written := sock.written ++ (toBigEndian 4 payload.length ++ payload), timed := true } := by
  rw [sendKey1_of_fits encodes fits]
  rfl

end SendKey1

/-- What `send_key1` promises: a normal return only on a zero byte, otherwise its own exception. -/
def KeepsPromise (sock : Socket) (outcome : Outcome Unit) : Prop :=
  outcome = .returned () ∧ sock.bytes.head? = some 0 ∨ ∃ message, outcome = .raised (.serverStartupError message)

theorem not_keepsPromise_of_raised {sock : Socket} {error : HandoffError}
    (other : ∀ message, error ≠ .serverStartupError message) : ¬KeepsPromise sock (.raised error) := by
  rintro (⟨returned, _⟩ | ⟨message, raised⟩)
  · cases returned
  · cases raised
    exact other message rfl

theorem not_keepsPromise_waiting (sock : Socket) : ¬KeepsPromise sock .waiting := by
  rintro (⟨returned, _⟩ | ⟨message, raised⟩)
  · cases returned
  · cases raised

/-- The message of a failed start gets through if all of its frame does. -/
theorem keepsPromise_error_iff (sock start : Socket) (timed : sock.timed = true) :
    KeepsPromise start (readReport STATUS_ERR sock).1 ↔ ∃ message more, Framed sock.bytes message more := by
  rw [readReport_error]
  constructor
  · intro kept
    apply Classical.byContradiction
    intro unframed
    obtain ⟨error, after, failed, other⟩ :=
      receiveKey1_fails (fun text more framed => unframed ⟨text, more, framed⟩) (.inr timed)
    rw [bind_raised failed] at kept
    exact not_keepsPromise_of_raised other kept
  · rintro ⟨message, more, framed⟩
    cases receiveKey1_cases sock with
    | inl whole =>
      obtain ⟨text, _, left, _, read⟩ := whole
      rw [bind_returned read]
      exact .inr ⟨text, rfl⟩
    | inr unframed => exact absurd framed (unframed.1 message more)

/-- The status and what belongs to it, once KEY1 has been sent. -/
theorem keepsPromise_status_iff (sock start : Socket) (same : start.bytes = sock.bytes) (timed : sock.timed = true) :
    KeepsPromise start ((awaitStatus >>= readReport) sock).1 ↔
      ∀ frame, sock.bytes = 1 :: frame → ∃ message more, Framed frame message more := by
  cases awaitStatus_cases sock timed with
  | inr nothing =>
    obtain ⟨empty, message, left, ended⟩ := nothing
    rw [bind_raised ended, empty]
    constructor
    · intro _ frame starts
      cases starts
    · intro _
      exact .inr ⟨message, rfl⟩
  | inl answered =>
    obtain ⟨status, rest, left, split, ended⟩ := answered
    rw [bind_returned ended, split]
    by_cases isOk : [status] = STATUS_OK
    · obtain rfl : status = 0 := List.singleton_inj.mp isOk
      rw [isOk, readReport_ok]
      constructor
      · intro _ frame starts
        cases starts
      · intro _
        exact .inl ⟨rfl, by rw [same, split]; rfl⟩
    · by_cases isError : [status] = STATUS_ERR
      · obtain rfl : status = 1 := List.singleton_inj.mp isError
        rw [isError]
        apply (keepsPromise_error_iff { sock with bytes := rest, cuts := left } start timed).trans
        constructor
        · rintro framed frame ⟨⟩
          exact framed
        · intro framed
          exact framed rest rfl
      · rw [readReport_other isOk isError]
        constructor
        · rintro _ frame ⟨⟩
          exact absurd rfl isError
        · intro _
          exact .inr ⟨_, rfl⟩

/-- The promise is broken where KEY1 does not get out whole. -/
theorem sent_of_keepsPromise {sending : Sending} {key1 : List CodePoint} {sock : Socket}
    (kept : KeepsPromise sock (sendKey1 sending key1 sock).1) :
    (∃ payload, encodeText key1 = some payload ∧ payload.length < 2 ^ 32) ∧ sending = .whole := by
  cases encoded : encodeText key1 with
  | none =>
    have failed : sendKey1 sending key1 sock = (.raised .unicodeEncodeError, sock) := by
      unfold sendKey1
      rw [encoded]
      exact bind_raised rfl
    rw [failed] at kept
    exact absurd kept (not_keepsPromise_of_raised fun message => nofun)
  | some payload =>
    by_cases fits : payload.length < 2 ^ 32
    · refine ⟨⟨payload, rfl, fits⟩, ?_⟩
      rw [sendKey1_of_fits encoded fits] at kept
      cases sending with
      | whole => rfl
      | broken count text =>
        have failed : sendall (.broken count text) (toBigEndian 4 payload.length ++ payload) sock =
            (.raised (.osError text), _) := rfl
        rw [bind_raised failed] at kept
        exact absurd kept (not_keepsPromise_of_raised fun message => nofun)
      | stuck count =>
        cases timed : sock.timed with
        | true =>
          rw [bind_raised (by rw [sendall, if_pos timed])] at kept
          exact absurd kept (not_keepsPromise_of_raised fun message => nofun)
        | false =>
          rw [bind_waiting (by rw [sendall, if_neg (by simp [timed])])] at kept
          exact absurd kept (not_keepsPromise_waiting sock)
    · have failed : sendKey1 sending key1 sock = (.raised .structError, sock) := by
        unfold sendKey1
        rw [encoded]
        show (lengthPrefixed payload >>= _) sock = _
        rw [lengthPrefixed, packLength, if_neg fits]
        exact bind_raised rfl
      rw [failed] at kept
      exact absurd kept (not_keepsPromise_of_raised fun message => nofun)

/-- `send_key1` keeps its promise exactly when KEY1 can be encoded and is sent whole and an
error status comes with all of its frame, the message in UTF-8. -/
theorem bad_endings_reported_iff (sending : Sending) (key1 : List CodePoint) (sock : Socket) :
    KeepsPromise sock (sendKey1 sending key1 sock).1 ↔
      (∃ payload, encodeText key1 = some payload ∧ payload.length < 2 ^ 32) ∧ sending = .whole ∧
        ∀ frame, sock.bytes = 1 :: frame → ∃ message more, Framed frame message more := by
  constructor
  · intro kept
    obtain ⟨⟨payload, encodes, fits⟩, rfl⟩ := sent_of_keepsPromise kept
    rw [sendKey1_whole encodes fits,
      keepsPromise_status_iff { sock with written := _, timed := true } sock rfl rfl] at kept
    exact ⟨⟨payload, encodes, fits⟩, rfl, kept⟩
  · rintro ⟨⟨payload, encodes, fits⟩, rfl, framed⟩
    rw [sendKey1_whole encodes fits, keepsPromise_status_iff { sock with written := _, timed := true } sock rfl rfl]
    exact framed

/-- A stream that ends after `bytes`. -/
def closedAfter (bytes : Bytes) : Socket where
  bytes := bytes
  cuts := []
  ending := .closed
  written := []
  timed := false

/-- A server gone before KEY1 was sent, one cut off within its error frame, and an error text
that is no UTF-8. -/
theorem bad_endings_unreported :
    ¬KeepsPromise (closedAfter [])
      (sendKey1 (.broken 0 "[Errno 32] Broken pipe") (codePoints "k") (closedAfter [])).1 ∧
    ¬KeepsPromise (closedAfter [1, 0, 0]) (sendKey1 .whole (codePoints "k") (closedAfter [1, 0, 0])).1 ∧
    ¬KeepsPromise (closedAfter [1, 0, 0, 0, 1, 255])
      (sendKey1 .whole (codePoints "k") (closedAfter [1, 0, 0, 0, 1, 255])).1 := by
  have broken : (sendKey1 (.broken 0 "[Errno 32] Broken pipe") (codePoints "k") (closedAfter [])).1 =
      .raised (.osError "[Errno 32] Broken pipe") := by decide +kernel
  have short : (sendKey1 .whole (codePoints "k") (closedAfter [1, 0, 0])).1 =
      .raised (.osError "socket closed before expected data was received") := by decide +kernel
  have undecoded : (sendKey1 .whole (codePoints "k") (closedAfter [1, 0, 0, 0, 1, 255])).1 =
      .raised .unicodeDecodeError := by decide +kernel
  rw [broken, short, undecoded]
  refine ⟨?_, ?_, ?_⟩
  · exact not_keepsPromise_of_raised fun message => nofun
  · exact not_keepsPromise_of_raised fun message => nofun
  · exact not_keepsPromise_of_raised fun message => nofun

/-! ## Both ends -/

section BothEnds

variable {α β : Type} {first : Exchange α} {next : α → Exchange β} {bytes more : Bytes}

/-- The call takes `bytes` off the stream and comes to `outcome`, whatever follows and in
whatever pieces it arrives. -/
def Reads (call : Exchange α) (bytes : Bytes) (outcome : Outcome α) : Prop :=
  ∀ sock more, sock.bytes = bytes ++ more → (call sock).1 = outcome ∧ (call sock).2.bytes = more

/-- The call writes `bytes`, whatever there is to be read. -/
def Writes (call : Exchange α) (bytes : Bytes) : Prop := ∀ sock, (call sock).2.written = sock.written ++ bytes

theorem Reads.bind {value : α} {outcome : Outcome β} (reads : Reads first bytes (.returned value))
    (rest : Reads (next value) more outcome) : Reads (first >>= next) (bytes ++ more) outcome := by
  intro sock others split
  obtain ⟨returned, left⟩ := reads sock (more ++ others) (by rw [split, List.append_assoc])
  have ended : first sock = (.returned value, (first sock).2) := Prod.ext returned rfl
  rw [bind_returned ended]
  exact rest _ others left

theorem reads_pure (value : α) : Reads (pure value) [] (.returned value) := fun _ _ split => ⟨rfl, split⟩

theorem reads_raise (error : HandoffError) : Reads (Exchange.raise error : Exchange α) [] (.raised error) :=
  fun _ _ split => ⟨rfl, split⟩

theorem reads_recvExact (part : Bytes) : Reads (recvExact part.length) part (.returned part) := by
  intro sock more split
  cases recvExact_cases part.length sock with
  | inl whole =>
    obtain ⟨other, rest, left, otherSplit, size, ended⟩ := whole
    obtain ⟨rfl, rfl⟩ := List.append_inj (split.symm.trans otherSplit) size.symm
    rw [ended]
    exact ⟨rfl, rfl⟩
  | inr short =>
    obtain ⟨less, _⟩ := short
    rw [split, List.length_append] at less
    omega

theorem reads_awaitStatus (status : UInt8) : Reads awaitStatus [status] (.returned [status]) := by
  intro sock more split
  obtain ⟨returned, left⟩ := reads_recvExact [status] sock more split
  have ended : recvExact 1 sock = (.returned [status], (recvExact 1 sock).2) := Prod.ext returned rfl
  unfold awaitStatus Exchange.exceptOSError
  rw [ended]
  exact ⟨rfl, left⟩

/-- What follows a call that writes may read and fail as it likes. -/
theorem Writes.bind (writes : Writes first bytes) (silent : ∀ value, Writes (next value) []) :
    Writes (first >>= next) bytes := by
  intro sock
  have written := writes sock
  rw [bind_apply]
  cases ended : first sock with
  | mk outcome after =>
    rw [ended] at written
    cases outcome with
    | returned value => rw [silent value after, List.append_nil, written]
    | raised error => exact written
    | waiting => exact written

end BothEnds

/-! ### Calls that only read -/

theorem writes_recvExact (size : Nat) : Writes (recvExact size) [] := by
  intro sock
  rw [List.append_nil]
  cases recvExact_cases size sock with
  | inl whole =>
    obtain ⟨part, more, left, _, _, ended⟩ := whole
    rw [ended]
  | inr short =>
    obtain ⟨_, left, ended⟩ := short
    rw [ended]

theorem writes_receiveKey1 : Writes receiveKey1 [] := by
  intro sock
  rw [List.append_nil]
  cases receiveKey1_cases sock with
  | inl framed =>
    obtain ⟨text, more, left, _, read⟩ := framed
    rw [read]
  | inr unframed =>
    obtain ⟨_, after, same, failed⟩ := unframed
    cases failed with
    | inl ended => rw [ended, same]
    | inr undecoded => rw [undecoded, same]

theorem writes_raise {α : Type} (error : HandoffError) : Writes (Exchange.raise error : Exchange α) [] :=
  fun _ => (List.append_nil _).symm

theorem writes_awaitStatus : Writes awaitStatus [] := by
  intro sock
  have silent := writes_recvExact 1 sock
  unfold awaitStatus Exchange.exceptOSError
  split
  · rename_i text after failed
    rw [failed] at silent
    exact silent
  · exact silent

theorem writes_readReport (status : Bytes) : Writes (readReport status) [] := by
  by_cases isOk : status = STATUS_OK
  · rw [isOk, readReport_ok]
    exact fun _ => (List.append_nil _).symm
  · by_cases isError : status = STATUS_ERR
    · rw [isError, readReport_error]
      exact writes_receiveKey1.bind fun message => writes_raise _
    · rw [readReport_other isOk isError]
      exact writes_raise _

/-! ### The round trip -/

/-- A text under its length. -/
def frame (text : String) : Bytes := toBigEndian 4 (encodeUtf8 text).length ++ encodeUtf8 text

/-- What a server may do once it has KEY1. -/
inductive Report where
  | ready
  | startupError (message : String)

def Report.send : Report → Exchange Unit
  | .ready => sendReady .whole
  | .startupError message => sendStartupError .whole (codePoints message)

def Report.bytes : Report → Bytes
  | .ready => STATUS_OK
  | .startupError message => STATUS_ERR ++ frame message

/-- What `send_key1` is to make of it. -/
def Report.outcome : Report → Outcome Unit
  | .ready => .returned ()
  | .startupError message => .raised (.serverStartupError message)

def Report.Fits : Report → Prop
  | .ready => True
  | .startupError message => (encodeUtf8 message).length < 2 ^ 32

section Framing

variable {key1 : String}

theorem ofBigEndian_length {payload : Bytes} (fits : payload.length < 2 ^ 32) :
    ofBigEndian (toBigEndian 4 payload.length) = payload.length :=
  ofBigEndian_toBigEndian 4 payload.length fits

theorem reads_receiveKey1 (fits : (encodeUtf8 key1).length < 2 ^ 32) :
    Reads receiveKey1 (frame key1) (.returned key1) := by
  have prefixed := reads_recvExact (toBigEndian 4 (encodeUtf8 key1).length)
  have payload := reads_recvExact (encodeUtf8 key1)
  rw [length_toBigEndian] at prefixed
  rw [← ofBigEndian_length fits] at payload
  have decoded : Reads (.ofOption .unicodeDecodeError (decodeUtf8 (encodeUtf8 key1))) [] (.returned key1) := by
    rw [decodeUtf8_encodeUtf8]
    exact reads_pure key1
  have whole : frame key1 = toBigEndian 4 (encodeUtf8 key1).length ++ (encodeUtf8 key1 ++ []) := by
    rw [List.append_nil]
    rfl
  unfold receiveKey1
  rw [whole]
  exact prefixed.bind (payload.bind decoded)

/-- Less than a frame is no frame: its length is in its first four bytes. -/
theorem receiveKey1_cut_short (fits : (encodeUtf8 key1).length < 2 ^ 32) {sock : Socket}
    (part : sock.bytes <+: frame key1) (strict : sock.bytes ≠ frame key1) (ends : sock.ending ≠ .silence) :
    ∃ error, (receiveKey1 sock).1 = .raised error := by
  have unframed : ∀ text more, ¬Framed sock.bytes text more := by
    rintro text more ⟨rawLength, payload, split, size, long, _⟩
    obtain ⟨missing, whole⟩ := part
    have together : rawLength ++ (payload ++ more ++ missing) = frame key1 := by
      rw [← whole, split]
      simp only [List.append_assoc]
    obtain ⟨rfl, rest⟩ := List.append_inj together (by rw [size, length_toBigEndian])
    have lengths := congrArg List.length rest
    simp only [List.length_append] at lengths
    rw [long, ofBigEndian_length fits] at lengths
    obtain rfl : missing = [] := List.eq_nil_of_length_eq_zero (by omega)
    exact strict (by rw [← whole, List.append_nil])
  obtain ⟨error, after, failed, _⟩ := receiveKey1_fails unframed (.inl ends)
  exact ⟨error, by rw [failed]⟩

theorem writes_sendall (bytes : Bytes) : Writes (sendall .whole bytes) bytes := fun _ => rfl

theorem Report.writes_send {report : Report} (fits : report.Fits) : Writes report.send report.bytes := by
  cases report with
  | ready => exact writes_sendall STATUS_OK
  | startupError message =>
    intro sock
    show (sendStartupError .whole (codePoints message) sock).2.written = _
    unfold sendStartupError
    rw [encodeText_codePoints]
    show ((lengthPrefixed (encodeUtf8 message) >>= _) sock).2.written = _
    rw [lengthPrefixed_of_fits fits]
    rfl

theorem writes_sendKey1 (fits : (encodeUtf8 key1).length < 2 ^ 32) :
    Writes (sendKey1 .whole (codePoints key1)) (frame key1) := by
  intro sock
  rw [sendKey1_whole (encodeText_codePoints key1) fits]
  have silent := writes_awaitStatus.bind writes_readReport
  rw [silent, List.append_nil]
  rfl

theorem reads_readReport {report : Report} (fits : report.Fits) :
    ∃ status rest, report.bytes = status :: rest ∧ Reads (readReport [status]) rest report.outcome := by
  cases report with
  | ready => exact ⟨0, [], rfl, readReport_ok ▸ reads_pure ()⟩
  | startupError message =>
    refine ⟨1, frame message, rfl, ?_⟩
    have whole : frame message = frame message ++ [] := (List.append_nil _).symm
    show Reads (readReport STATUS_ERR) _ (.raised (.serverStartupError message))
    rw [readReport_error, whole]
    exact (reads_receiveKey1 fits).bind (reads_raise (.serverStartupError message))

theorem reads_sendKey1 (fits : (encodeUtf8 key1).length < 2 ^ 32) {report : Report} (reportFits : report.Fits) :
    Reads (sendKey1 .whole (codePoints key1)) report.bytes report.outcome := by
  obtain ⟨status, rest, split, read⟩ := reads_readReport reportFits
  have both := (reads_awaitStatus status).bind read
  intro sock more arrives
  rw [sendKey1_whole (encodeText_codePoints key1) fits]
  rw [split] at arrives
  exact both _ more arrives

end Framing

/-- KEY1 and the report get through whole, in whatever pieces they arrive, and nothing that
follows them is touched.  A key frame that is cut short is an exception. -/
theorem handoff_framing (key1 : String) (fits : (encodeUtf8 key1).length < 2 ^ 32) :
    (Writes (sendKey1 .whole (codePoints key1)) (frame key1) ∧ Reads receiveKey1 (frame key1) (.returned key1)) ∧
    (∀ sock : Socket, sock.bytes <+: frame key1 → sock.bytes ≠ frame key1 → sock.ending ≠ .silence →
      ∃ error, (receiveKey1 sock).1 = .raised error) ∧
    (∀ report : Report, report.Fits →
      Writes report.send report.bytes ∧
      Reads (sendKey1 .whole (codePoints key1)) report.bytes report.outcome ∧
      (report.outcome = .returned () ↔ report = .ready)) ∧
    (∀ sock : Socket, sock.bytes = [] →
      ∃ message, (sendKey1 .whole (codePoints key1) sock).1 = .raised (.serverStartupError message)) := by
  refine ⟨⟨writes_sendKey1 fits, reads_receiveKey1 fits⟩, fun sock => receiveKey1_cut_short fits, ?_, ?_⟩
  · intro report reportFits
    refine ⟨Report.writes_send reportFits, reads_sendKey1 fits reportFits, ?_⟩
    cases report with
    | ready => simp [Report.outcome]
    | startupError message => simp [Report.outcome]
  · intro sock empty
    rw [sendKey1_whole (encodeText_codePoints key1) fits]
    cases awaitStatus_cases { sock with written := sock.written ++ frame key1, timed := true } rfl with
    | inl answered =>
      obtain ⟨status, more, _, split, _⟩ := answered
      rw [empty] at split
      cases split
    | inr nothing =>
      obtain ⟨_, message, left, ended⟩ := nothing
      exact ⟨message, congrArg Prod.fst (bind_raised ended)⟩

/-- Two bytes for the accented letter, and one byte too few. -/
theorem handoff_framing_accented :
    Writes (sendKey1 .whole (codePoints "é")) [0, 0, 0, 2, 195, 169] ∧
    Reads receiveKey1 [0, 0, 0, 2, 195, 169] (.returned "é") ∧
    (∃ error, (receiveKey1 (closedAfter [0, 0, 0, 2, 195])).1 = .raised error) ∧
    Reads (sendKey1 .whole (codePoints "é")) [1, 0, 0, 0, 2, 110, 111] (.raised (.serverStartupError "no")) := by
  have key1 : frame "é" = [0, 0, 0, 2, 195, 169] := by decide +kernel
  have report : (Report.startupError "no").bytes = [1, 0, 0, 0, 2, 110, 111] := by decide +kernel
  obtain ⟨⟨written, received⟩, short, reports, _⟩ := handoff_framing "é" (by decide +kernel)
  obtain ⟨_, raised, _⟩ := reports (.startupError "no") (show (encodeUtf8 "no").length < 2 ^ 32 by decide +kernel)
  rw [key1] at written received short
  rw [report] at raised
  refine ⟨written, received, short (closedAfter [0, 0, 0, 2, 195]) ⟨[169], rfl⟩ ?_ ?_, raised⟩
  · decide
  · nofun

/-! ## The phases of the initiator

The interleaved model takes the turns of `_recv_exact` one at a time.  Against a server that is
gone they come to what `send_key1` comes to. -/

section Phases

open SecretWeb.Server SecretWeb.Machine

variable {key1 : String}

def receives (counts : List Nat) : List HandoffEvent := counts.map fun count => .initiator (.receive count)

/-- A phase in which the initiator receives, and what it is followed by. -/
def Awaits (key1 : String) (phase : Receiving → InitiatorPhase) (ended : InitiatorPhase)
    (whole : Bytes → InitiatorPhase) : Prop :=
  ∀ state receiving count, state.initiator = phase receiving →
    initiatorStep key1 state (.receive count) =
      match receiving.turn state.toInitiator state.server.socketOpen count with
      | .blocked => state
      | .closed => { state with initiator := ended }
      | .more next queue => { state with initiator := phase next, toInitiator := queue }
      | .whole bytes => { state with initiator := whole bytes }

theorem awaits_status : Awaits key1 .awaitingStatus (.closing (some (.serverStartupError
    "server did not report a startup status: socket closed before expected data was received"))) readStatus := by
  rintro ⟨initiator, _⟩ receiving count rfl
  rfl

theorem awaits_length : Awaits key1 .readingLength (.closing (some .osError))
    fun length => .readingMessage ⟨ofBigEndian length, []⟩ := by
  rintro ⟨initiator, _⟩ receiving count rfl
  rfl

theorem awaits_message : Awaits key1 .readingMessage (.closing (some .osError)) readMessage := by
  rintro ⟨initiator, _⟩ receiving count rfl
  rfl

theorem turn_blocked {receiving : Receiving} {queue : Bytes} {peerOpen : Bool} {count : Nat}
    (turned : receiving.turn queue peerOpen count = .blocked) : peerOpen = true := by
  unfold Receiving.turn at turned
  split at turned
  · cases turned
  · cases queue with
    | cons first rest => cases turned
    | nil =>
      cases peerOpen with
      | true => rfl
      | false => cases turned

/-- A server that is gone has left these bytes. -/
structure Left (state : Handoff) (sock : Socket) : Prop where
  gone : state.server = .exited
  closed : sock.ending = .closed
  bytes : state.toInitiator = sock.bytes

/-- What a phase comes to. -/
def phaseAfter (ended : InitiatorPhase) (whole : Bytes → InitiatorPhase) : Outcome Bytes → InitiatorPhase
  | .returned bytes => whole bytes
  | _ => ended

theorem Left.turn {state : Handoff} {sock : Socket} (left : Left state sock) (receiving : Receiving) (count : Nat) :
    receiving.turn state.toInitiator state.server.socketOpen count =
      receiving.turn sock.bytes (decide (sock.ending ≠ .closed)) count := by
  rw [left.bytes, left.gone, left.closed]
  rfl

theorem run_receives {phase : Receiving → InitiatorPhase} {ended : InitiatorPhase} {whole : Bytes → InitiatorPhase}
    (awaits : Awaits key1 phase ended whole) (receiving : Receiving) (sock : Socket) {state : Handoff}
    (waiting : state.initiator = phase receiving) (left : Left state sock) :
    ∃ counts, run (handoffStep key1) state (receives counts) =
      { state with initiator := phaseAfter ended whole (receiveFrom receiving sock).1
                   toInitiator := (receiveFrom receiving sock).2.bytes } := by
  fun_induction receiveFrom receiving sock generalizing state with
  | case1 receiving sock blocked =>
    -- a server that is gone leaves nobody to wait for
    have peerOpen := turn_blocked blocked
    simp [left.closed] at peerOpen
  | case2 receiving sock closed =>
    have stepped := awaits state receiving (sock.cuts.headD 0) waiting
    rw [left.turn, closed] at stepped
    refine ⟨[sock.cuts.headD 0], stepped.trans ?_⟩
    rw [Socket.atEnd, left.closed, ← left.bytes]
    rfl
  | case3 receiving sock next queue more inductionHypothesis =>
    have stepped := awaits state receiving (sock.cuts.headD 0) waiting
    rw [left.turn, more] at stepped
    obtain ⟨counts, ran⟩ := @inductionHypothesis { state with initiator := phase next, toInitiator := queue } rfl
      ⟨left.gone, left.closed, rfl⟩
    refine ⟨sock.cuts.headD 0 :: counts, ?_⟩
    show run (handoffStep key1) (initiatorStep key1 state (.receive (sock.cuts.headD 0))) (receives counts) = _
    rw [stepped, ran]
  | case4 receiving sock bytes complete =>
    have stepped := awaits state receiving (sock.cuts.headD 0) waiting
    rw [left.turn, complete] at stepped
    refine ⟨[sock.cuts.headD 0], stepped.trans ?_⟩
    rw [← left.bytes]
    rfl

/-- The exceptions of the two models, that of the interleaved one without the text of an
`OSError`. -/
inductive Agrees : Option StartFailure → Outcome Unit → Prop
  | returned : Agrees none (.returned ())
  | startupError (message : String) :
      Agrees (some (.serverStartupError message)) (.raised (.serverStartupError message))
  | unexpected (status : Bytes) : Agrees (some (.unexpectedStatus status))
      (.raised (.serverStartupError ("unexpected status byte from server: " ++ reprBytes status)))
  | osError (text : String) : Agrees (some .osError) (.raised (.osError text))
  | undecoded : Agrees (some .unicodeDecodeError) (.raised .unicodeDecodeError)

/-- A read that ends early ends both models in the `OSError` of `_recv_exact`. -/
theorem run_short {ran : Handoff} {whole : Bytes → InitiatorPhase} {size : Nat} {sock after : Socket}
    (next : Bytes → Exchange Unit)
    (came : ran.initiator = phaseAfter (.closing (some .osError)) whole (recvExact size sock).1)
    (ended : recvExact size sock = (sock.atEnd, after)) (closed : sock.ending = .closed) :
    ran.initiator = .closing (some .osError) ∧ Agrees (some .osError) ((recvExact size >>= next) sock).1 := by
  constructor
  · rw [came, ended, Socket.atEnd, closed]
    rfl
  · rw [bind_atEnd ended, Socket.atEnd, closed]
    exact .osError _

theorem run_receives_append {state middle : Handoff} {first second : List Nat}
    (ran : run (handoffStep key1) state (receives first) = middle) :
    run (handoffStep key1) state (receives (first ++ second)) = run (handoffStep key1) middle (receives second) := by
  rw [receives, List.map_append, run_append]
  exact congrArg (fun between => run (handoffStep key1) between (receives second)) ran

/-- Reading the message, in the one model and in the other. -/
theorem run_readMessage (size : Nat) (sock : Socket) {state : Handoff}
    (waiting : state.initiator = .readingMessage ⟨size, []⟩) (left : Left state sock) :
    ∃ counts failure, (run (handoffStep key1) state (receives counts)).initiator = .closing (some failure) ∧
      Agrees (some failure) ((recvExact size >>= fun bytes => .ofOption .unicodeDecodeError (decodeUtf8 bytes) >>=
        fun message => .raise (.serverStartupError message)) sock : Outcome Unit × Socket).1 := by
  obtain ⟨counts, ran⟩ := run_receives awaits_message ⟨size, []⟩ sock waiting left
  change run (handoffStep key1) state (receives counts) = { state with
    initiator := phaseAfter (.closing (some .osError)) readMessage (recvExact size sock).1
    toInitiator := (recvExact size sock).2.bytes } at ran
  cases recvExact_cases size sock with
  | inr short =>
    obtain ⟨_, rest, ended⟩ := short
    exact ⟨counts, .osError, run_short _ (congrArg Handoff.initiator ran) ended left.closed⟩
  | inl whole =>
    obtain ⟨bytes, more, rest, _, _, ended⟩ := whole
    rw [bind_returned ended]
    cases decodes : decodeUtf8 bytes with
    | none =>
      refine ⟨counts, .unicodeDecodeError, ?_, .undecoded⟩
      rw [ran, ended, phaseAfter, readMessage, decodes]
    | some message =>
      refine ⟨counts, .serverStartupError message, ?_, .startupError message⟩
      rw [ran, ended, phaseAfter, readMessage, decodes]

/-- Reading the error frame, in the one model and in the other. -/
theorem run_readError (sock : Socket) {state : Handoff} (waiting : state.initiator = .readingLength ⟨4, []⟩)
    (left : Left state sock) :
    ∃ counts failure, (run (handoffStep key1) state (receives counts)).initiator = .closing (some failure) ∧
      Agrees (some failure) (readReport STATUS_ERR sock).1 := by
  obtain ⟨counts, ran⟩ := run_receives awaits_length ⟨4, []⟩ sock waiting left
  change run (handoffStep key1) state (receives counts) = { state with
    initiator := phaseAfter (.closing (some .osError)) (fun length => .readingMessage ⟨ofBigEndian length, []⟩)
      (recvExact 4 sock).1
    toInitiator := (recvExact 4 sock).2.bytes } at ran
  have different : STATUS_ERR ≠ STATUS_OK := by decide
  rw [readReport, if_neg different, if_pos rfl]
  cases recvExact_cases 4 sock with
  | inr short =>
    obtain ⟨_, rest, ended⟩ := short
    exact ⟨counts, .osError, run_short _ (congrArg Handoff.initiator ran) ended left.closed⟩
  | inl whole =>
    obtain ⟨rawLength, more, rest, _, _, ended⟩ := whole
    rw [ended] at ran
    obtain ⟨others, failure, closing, agrees⟩ := @run_readMessage key1 (ofBigEndian rawLength)
      { sock with bytes := more, cuts := rest } { state with
        initiator := .readingMessage ⟨ofBigEndian rawLength, []⟩
        toInitiator := more } rfl ⟨left.gone, left.closed, rfl⟩
    refine ⟨counts ++ others, failure, ?_, ?_⟩
    · rw [run_receives_append ran]
      exact closing
    · rw [bind_returned ended]
      exact agrees

theorem run_awaitStatus (sock : Socket) {state : Handoff} (waiting : state.initiator = .awaitingStatus ⟨1, []⟩)
    (left : Left state sock) :
    ∃ counts failure, (run (handoffStep key1) state (receives counts)).initiator = .closing failure ∧
      Agrees failure ((awaitStatus >>= readReport) sock).1 := by
  obtain ⟨counts, ran⟩ := @run_receives key1 _ _ _ awaits_status ⟨1, []⟩ sock state waiting left
  change run (handoffStep key1) state (receives counts) = { state with
    initiator := phaseAfter (.closing (some (.serverStartupError
      "server did not report a startup status: socket closed before expected data was received"))) readStatus
      (recvExact 1 sock).1
    toInitiator := (recvExact 1 sock).2.bytes } at ran
  cases recvExact_cases 1 sock with
  | inr short =>
    obtain ⟨_, rest, ended⟩ := short
    have atEnd : (sock.atEnd : Outcome Bytes) =
        .raised (.osError "socket closed before expected data was received") := by
      rw [Socket.atEnd, left.closed]
    rw [atEnd] at ended
    have failed : awaitStatus sock = (.raised (.serverStartupError
        "server did not report a startup status: socket closed before expected data was received"),
        { sock with bytes := [], cuts := rest }) := by
      unfold awaitStatus Exchange.exceptOSError
      rw [ended]
      rfl
    refine ⟨counts, some (.serverStartupError
      "server did not report a startup status: socket closed before expected data was received"), ?_, ?_⟩
    · rw [ran, ended]
      rfl
    · rw [bind_raised failed]
      exact .startupError _
  | inl whole =>
    obtain ⟨status, more, rest, _, _, ended⟩ := whole
    have returned : awaitStatus sock = (.returned status, { sock with bytes := more, cuts := rest }) := by
      unfold awaitStatus Exchange.exceptOSError
      rw [ended]
    rw [ended] at ran
    rw [bind_returned returned]
    -- the status decides the phase in the one model and the branch in the other
    by_cases isOk : status = STATUS_OK
    · refine ⟨counts, none, ?_, ?_⟩
      · rw [ran, phaseAfter, readStatus, if_pos isOk]
      · rw [isOk, readReport_ok]
        exact .returned
    · by_cases isError : status = STATUS_ERR
      · obtain ⟨others, failure, closing, agrees⟩ := @run_readError key1 { sock with bytes := more, cuts := rest }
          { state with initiator := .readingLength ⟨4, []⟩, toInitiator := more } rfl ⟨left.gone, left.closed, rfl⟩
        rw [phaseAfter, readStatus, if_neg isOk, if_pos isError] at ran
        refine ⟨counts ++ others, some failure, ?_, ?_⟩
        · rw [run_receives_append ran]
          exact closing
        · rw [isError]
          exact agrees
      · refine ⟨counts, some (.unexpectedStatus status), ?_, ?_⟩
        · rw [ran, phaseAfter, readStatus, if_neg isOk, if_neg isError]
        · rw [readReport_other isOk isError]
          exact .unexpected status

/-- Once KEY1 is sent and the server is gone, the phases of the initiator end as `send_key1` does. -/
theorem run_sendKey1 (fits : (encodeUtf8 key1).length < 2 ^ 32) (sock : Socket) {state : Handoff}
    (waiting : state.initiator = .awaitingStatus ⟨1, []⟩) (left : Left state sock) :
    ∃ counts failure, (run (handoffStep key1) state (receives counts)).initiator = .closing failure ∧
      Agrees failure (sendKey1 .whole (codePoints key1) sock).1 := by
  rw [sendKey1_whole (encodeText_codePoints key1) fits]
  exact run_awaitStatus { sock with written := sock.written ++ frame key1, timed := true } waiting
    ⟨left.gone, left.closed, left.bytes⟩

end Phases

end SecretWeb.Initiator
