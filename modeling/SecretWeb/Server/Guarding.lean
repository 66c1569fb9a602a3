import Mathlib.Tactic.ByContra
import SecretWeb.Server.Recovery

/-! # What every boot finds

A request that is cut off may be found carried out at the next boot, or not at all.  What
every request preserves therefore holds of the store whenever a server holds one. -/

namespace SecretWeb.Server.Recovery

open SecretWeb.Data SecretWeb.Python SecretWeb.Python.JsonText SecretWeb.Storage SecretWeb.Machine

open SecretWeb.CryptoFile (Nonce)

/-- The request that the process is at, and the answer it is going to get. -/
def Process.current {floats : FloatText} : Process floats → Option (Post floats × Except Failure Answer)
  | .saving _ post _ answer _ _ => some (post, .ok answer)
  | .answering _ post answer => some (post, answer)
  | _ => none

section Guarding

variable (cipher : Cipher) (key1 : String) (lower : String → String) (intOf : String → Option Int) (hosts : Json)
  {floats : FloatText}

/-- The host has settled on the store; the flight is the request that the last kill has cut
off, as long as nothing has been booted since. -/
structure Tracks (store : Store) (flight : Option (Post floats)) (host : Host floats) : Prop where
  sound : Sound cipher key1 lower intOf hosts store flight host
  grounded : host.process.starting = false → flight = none
  answers : ∀ post answer, host.process.current = some (post, answer) →
    (handle lower intOf ⟨hosts, store, store⟩ post.request).1 = some answer

/-- A store that a boot may find, now or after a kill. -/
def Possible (store : Store) (flight : Option (Post floats)) (host : Host floats) (candidate : Store) : Prop :=
  Candidate lower intOf hosts store ((host.process.current.map Prod.fst).or flight) candidate

/-- The property holds of whatever a boot may find. -/
def Guarded (property : Store → Prop) (host : Host floats) : Prop :=
  ∃ store flight, Tracks cipher key1 lower intOf hosts store flight host ∧
    ∀ candidate, Possible lower intOf hosts store flight host candidate → property candidate

variable {cipher key1 lower intOf hosts}

/-! ## One step -/

/-- The route up to its save gives the answer of the whole route. -/
theorem receive_answers {memory : Store} {post : Post floats} {answer : Except Failure Answer}
    (received : receive lower intOf hosts memory post = .answered answer ∨
      ∃ file next written, receive lower intOf hosts memory post = .saving file next written ∧ answer = .ok written) :
    (handle lower intOf ⟨hosts, memory, memory⟩ post.request).1 = some answer := by
  cases post with
  | share shareUuid commonName body =>
    show some (storeShare lower ⟨hosts, memory, memory⟩ shareUuid commonName (body.map Document.value) true).1 = _
    simp only [receive] at received
    cases checked : checkShare lower shareUuid commonName (body.map Document.value) with
    | error failure =>
      rw [checked] at received
      rw [storeShare_unchecked true checked]
      simpa using received
    | ok payload =>
      rw [checked] at received
      simp only [storeShare, checked]
      cases found : Dict.get memory.shares shareUuid with
      | some existing =>
        rw [found] at received
        dsimp only at received ⊢
        cases same : existing.equals payload with
        | true => simpa [same] using received
        | false => simpa [same] using received
      | none =>
        rw [found] at received
        obtain impossible | ⟨file, next, written, saved, rfl⟩ := received
        · cases impossible
        · cases saved
          rfl
  | secret name commonName body now =>
    show some (storeSecretMetadata lower intOf ⟨hosts, memory, memory⟩ name commonName (body.map Document.value) now
      true).1 = _
    simp only [receive] at received
    cases checked : checkMetadata lower intOf ⟨hosts, memory, memory⟩ commonName (body.map Document.value) now with
    | error failure =>
      rw [checked] at received
      rw [storeSecretMetadata_unchecked true checked]
      simpa using received
    | ok record =>
      rw [checked] at received
      rw [storeSecretMetadata_checked true checked]
      obtain impossible | ⟨file, next, written, saved, rfl⟩ := received
      · cases impossible
      · cases saved
        rfl

/-- What a step leaves the process at: nothing, what it was at, or a request that has come. -/
theorem current_step (host : Host floats) (event : Event floats) :
    (step cipher key1 lower intOf hosts host event).2.process.current = none ∨
    (step cipher key1 lower intOf hosts host event).2.process.current = host.process.current ∨
    ∃ post nonce memory answer, event = .post post nonce ∧ host.process = .running memory ∧
      (step cipher key1 lower intOf hosts host event).2.process.current = some (post, answer) ∧
      (handle lower intOf ⟨hosts, memory, memory⟩ post.request).1 = some answer := by
  obtain ⟨directory, process⟩ := host
  cases event with
  | start secretsNonce sharesNonce =>
    cases process with
    | down =>
      left
      show (ensureSecrets cipher floats key1 directory secretsNonce sharesNonce).current = none
      unfold ensureSecrets ensureShares booted
      repeat' split
      all_goals rfl
    | _ => exact .inr (.inl rfl)
  | work writeStep =>
    cases process with
    | creatingSecrets sharesNonce bytes writing =>
      left
      show (after (ensureShares cipher floats key1 _ defaultSecretsData sharesNonce) (.creatingSecrets sharesNonce bytes)
        (writing.step SECRETS_FILENAME bytes directory writeStep).1).current = none
      unfold after ensureShares booted
      repeat' split
      all_goals rfl
    | creatingShares secrets bytes writing =>
      left
      show (after (booted floats secrets defaultSharesData) (.creatingShares secrets bytes)
        (writing.step SHARES_FILENAME bytes directory writeStep).1).current = none
      unfold after booted
      repeat' split
      all_goals rfl
    | saving memory post file answer bytes writing =>
      right
      left
      show (after (Process.answering memory post (.ok answer)) (.saving memory post file answer bytes)
        (writing.step file.path bytes directory writeStep).1).current = _
      unfold after
      split
      · rfl
      · rfl
    | _ => exact .inr (.inl rfl)
  | post post nonce =>
    cases process with
    | running memory =>
      cases received : receive lower intOf hosts memory post with
      | answered answer =>
        exact .inr (.inr ⟨post, nonce, memory, answer, rfl, rfl, by simp only [step, received, Process.current],
          receive_answers (.inl received)⟩)
      | saving file next written =>
        exact .inr (.inr ⟨post, nonce, memory, .ok written, rfl, rfl, by simp only [step, received, Process.current],
          receive_answers (.inr ⟨file, next, written, received, rfl⟩)⟩)
    | _ => exact .inr (.inl rfl)
  | answer =>
    cases process with
    | answering memory post answer => exact .inl rfl
    | _ => exact .inr (.inl rfl)
  | kill => exact .inl rfl
  | elsewhere name bytes =>
    right
    left
    simp only [step]
    split
    · rfl
    · rfl

/-- A process stays at its request until it answers or is killed. -/
theorem current_kept {host : Host floats} {event : Event floats} {current : Post floats × Except Failure Answer}
    (busy : host.process.current = some current) (notKill : event ≠ .kill) (notAnswer : event ≠ .answer) :
    (step cipher key1 lower intOf hosts host event).2.process.current = some current := by
  obtain ⟨directory, process⟩ := host
  cases process with
  | saving memory post file answer bytes writing =>
    cases event with
    | kill => exact absurd rfl notKill
    | answer => exact absurd rfl notAnswer
    | work writeStep =>
      simp only [step]
      unfold after
      split
      · exact busy
      · exact busy
    | elsewhere name bytes =>
      simp only [step]
      split
      · exact busy
      · exact busy
    | _ => exact busy
  | answering memory post answer =>
    cases event with
    | kill => exact absurd rfl notKill
    | answer => exact absurd rfl notAnswer
    | elsewhere name bytes =>
      simp only [step]
      split
      · exact busy
      · exact busy
    | _ => exact busy
  | _ => cases busy

/-- A process that waits for requests is at the one that comes. -/
theorem current_post {host : Host floats} {memory : Store} (waiting : host.process = .running memory)
    (post : Post floats) (nonce : Nonce) :
    ∃ answer, (step cipher key1 lower intOf hosts host (.post post nonce)).2.process.current = some (post, answer) := by
  cases received : receive lower intOf hosts memory post with
  | answered answer => exact ⟨answer, by simp only [step, waiting, received, Process.current]⟩
  | saving file next written => exact ⟨.ok written, by simp only [step, waiting, received, Process.current]⟩

/-- A made-up past after which the host has settled on the store and the flight. -/
def past (store : Store) : Option (Post floats) → List (Step floats)
  | none => []
  | some post =>
    [⟨⟨[], .answering store post (.error (.aborted 0 ""))⟩, .kill, none, ⟨[], .down⟩⟩]

theorem settled_past (store : Store) (flight : Option (Post floats)) :
    settled lower intOf hosts store (past store flight) = store ∧ inFlight (past store flight) = flight := by
  cases flight with
  | none => exact ⟨rfl, rfl⟩
  | some post => exact ⟨rfl, rfl⟩

theorem current_of_starting {process : Process floats} (starting : process.starting = true) :
    process.current = none := by
  cases process with
  | down => rfl
  | creatingSecrets sharesNonce bytes writing => rfl
  | creatingShares secrets bytes writing => rfl
  | _ => cases starting

theorem running_of_memory {process : Process floats} {memory : Store} (waiting : process.memory = some memory) :
    process = .running memory := by
  cases process with
  | running held =>
    cases waiting
    rfl
  | _ => cases waiting

theorem cutOff_step {host : Host floats} {event : Event floats} {post : Post floats}
    (cut : cutOff ⟨host, event, (step cipher key1 lower intOf hosts host event).1,
      (step cipher key1 lower intOf hosts host event).2⟩ = some post) :
    event = .kill ∧ host.process.current.map Prod.fst = some post := by
  obtain ⟨directory, process⟩ := host
  cases event with
  | kill =>
    cases process with
    | saving memory other file answer bytes writing =>
      cases cut
      exact ⟨rfl, rfl⟩
    | answering memory other answer =>
      cases cut
      exact ⟨rfl, rfl⟩
    | _ => cases cut
  | _ => cases cut

/-- A server that was not booting and is not booted in this step has not come up in between. -/
theorem starting_step {host : Host floats} {event : Event floats}
    (unbooted : bootedWith ⟨host, event, (step cipher key1 lower intOf hosts host event).1,
      (step cipher key1 lower intOf hosts host event).2⟩ = none)
    (intact : (step cipher key1 lower intOf hosts host event).2.process ≠ .failed)
    (started : (step cipher key1 lower intOf hosts host event).2.process.starting = false) :
    host.process.starting = false := by
  cases before : host.process.starting with
  | false => rfl
  | true =>
    rw [bootedWith, if_pos before] at unbooted
    have idle := current_of_starting before
    have following := @current_step cipher key1 lower intOf hosts _ host event
    -- nothing is at a request, so that the process is up only if it waits for requests
    cases process : (step cipher key1 lower intOf hosts host event).2.process with
    | running memory =>
      rw [process] at unbooted
      cases unbooted
    | failed => exact absurd process intact
    | saving memory post file answer bytes writing =>
      rw [process, idle] at following
      obtain impossible | impossible | ⟨other, nonce, held, reply, _, running, _⟩ := following
      · cases impossible
      · cases impossible
      · rw [running] at before
        cases before
    | answering memory post answer =>
      rw [process, idle] at following
      obtain impossible | impossible | ⟨other, nonce, held, reply, _, running, _⟩ := following
      · cases impossible
      · cases impossible
      · rw [running] at before
        cases before
    | _ =>
      rw [process] at started
      cases started

/-- An answer is given to the request that the process is at. -/
theorem output_step {host : Host floats} {event : Event floats} {answer : Except Failure Answer}
    (answers : (step cipher key1 lower intOf hosts host event).1 = some answer) :
    event = .answer ∧ ∃ memory post, host.process = .answering memory post answer := by
  obtain ⟨directory, process⟩ := host
  cases event with
  | answer =>
    cases process with
    | answering memory post other =>
      cases answers
      exact ⟨rfl, memory, post, rfl⟩
    | _ => cases answers
  | elsewhere name bytes =>
    simp only [step] at answers
    split at answers
    · cases answers
    · cases answers
  | start secretsNonce sharesNonce => cases process <;> cases answers
  | work writeStep => cases process <;> cases answers
  | post post nonce =>
    cases process with
    | running memory =>
      simp only [step] at answers
      split at answers
      · cases answers
      · cases answers
    | _ => cases answers
  | kill => cases answers

/-- The request that has been taken up and may still be carried out. -/
def pending (flight : Option (Post floats)) (host : Host floats) : Option (Post floats) :=
  (host.process.current.map Prod.fst).or flight

/-- What a step does to the store that the host has settled on and to the pending request, by
what it answers: nothing, take up a request, answer it, or come to whatever a boot may find. -/
inductive Moved (lower : String → String) (intOf : String → Option Int) (hosts : Json) (store : Store)
    (flight : Option (Post floats)) (host : Host floats) (event : Event floats) :
    Option (Except Failure Answer) → Store → Option (Post floats) → Prop
  | same : Moved lower intOf hosts store flight host event none store (pending flight host)
  | posted {post : Post floats} {nonce : Nonce} {memory : Store} (isPost : event = .post post nonce)
      (running : host.process = .running memory) : Moved lower intOf hosts store flight host event none store (some post)
  | answered {post : Post floats} {answer : Except Failure Answer}
      (busy : host.process.current = some (post, answer)) :
      Moved lower intOf hosts store flight host event (some answer) (applied lower intOf hosts store post) none
  | found {candidate : Store} (possible : Candidate lower intOf hosts store (pending flight host) candidate) :
      Moved lower intOf hosts store flight host event none candidate none

/-- What a step leaves the process at is going to be answered as the route answers it. -/
theorem Tracks.answers_step {store : Store} {flight : Option (Post floats)} {host : Host floats}
    (tracks : Tracks cipher key1 lower intOf hosts store flight host) (event : Event floats) {post : Post floats}
    {answer : Except Failure Answer}
    (busy : (step cipher key1 lower intOf hosts host event).2.process.current = some (post, answer)) :
    (handle lower intOf ⟨hosts, store, store⟩ post.request).1 = some answer := by
  obtain idle | same | ⟨other, nonce, memory, reply, _, running, now, answers⟩ :=
    @current_step cipher key1 lower intOf hosts _ host event
  · rw [idle] at busy
    cases busy
  · exact tracks.answers post answer (same ▸ busy)
  · have held : memory = store := by
      have sound := tracks.sound
      rw [Sound, running] at sound
      exact sound.1
    rw [now] at busy
    cases busy
    rwa [held] at answers

/-- A step that leaves the store as it was. -/
theorem Tracks.moved_pending {store : Store} {flight : Option (Post floats)} {host : Host floats}
    (tracks : Tracks cipher key1 lower intOf hosts store flight host) (event : Event floats) :
    Moved lower intOf hosts store flight host event none store
      (pending flight (step cipher key1 lower intOf hosts host event).2) := by
  obtain idle | same | ⟨post, nonce, memory, answer, isPost, running, now, _⟩ :=
    @current_step cipher key1 lower intOf hosts _ host event
  · -- nothing is in the air unless the process was down or booting
    cases before : host.process.starting with
    | true =>
      have samePending : pending flight (Recovery.step cipher key1 lower intOf hosts host event).2 =
          pending flight host := by rw [pending, pending, idle, current_of_starting before]
      rw [samePending]
      exact .same
    | false =>
      rw [pending, idle, tracks.grounded before]
      exact .found (.inl rfl)
  · have samePending : pending flight (Recovery.step cipher key1 lower intOf hosts host event).2 =
        pending flight host := by rw [pending, pending, same]
    rw [samePending]
    exact .same
  · rw [pending, now]
    exact .posted isPost running

theorem Tracks.moves_answer {store : Store} {flight : Option (Post floats)} {host : Host floats}
    (tracks : Tracks cipher key1 lower intOf hosts store flight host) {memory : Store} {post : Post floats}
    {answer : Except Failure Answer} (answering : host.process = .answering memory post answer) :
    ∃ next inAir, Tracks cipher key1 lower intOf hosts next inAir (step cipher key1 lower intOf hosts host .answer).2 ∧
      Moved lower intOf hosts store flight host .answer (Recovery.step cipher key1 lower intOf hosts host .answer).1 next
        (pending inAir (Recovery.step cipher key1 lower intOf hosts host .answer).2) := by
  have stepped : Recovery.step cipher key1 lower intOf hosts host .answer =
      (some answer, { host with process := .running memory }) := by simp only [Recovery.step, answering]
  have sound := tracks.sound
  rw [Sound, answering] at sound
  obtain ⟨rfl, held, _⟩ := sound
  rw [stepped]
  refine ⟨_, none, ⟨⟨rfl, held⟩, fun _ => rfl, fun post answer busy => by cases busy⟩, ?_⟩
  exact .answered (by rw [answering]; rfl)

/-- The step lemma. -/
theorem Tracks.moves {store : Store} {flight : Option (Post floats)} {host : Host floats}
    (tracks : Tracks cipher key1 lower intOf hosts store flight host) (event : Event floats) :
    ∃ next inAir, Tracks cipher key1 lower intOf hosts next inAir (step cipher key1 lower intOf hosts host event).2 ∧
      Moved lower intOf hosts store flight host event (Recovery.step cipher key1 lower intOf hosts host event).1 next
        (pending inAir (Recovery.step cipher key1 lower intOf hosts host event).2) := by
  cases output : (Recovery.step cipher key1 lower intOf hosts host event).1 with
  | some answer =>
    obtain ⟨rfl, memory, post, answering⟩ := output_step output
    rw [← output]
    exact tracks.moves_answer answering
  | none =>
    obtain ⟨pastStore, pastFlight⟩ := @settled_past lower intOf hosts _ store flight
    obtain ⟨soundAfter, found⟩ := @kept_step cipher floats key1 lower intOf hosts store (past store flight) host
      (by rw [pastStore, pastFlight]; exact tracks.sound) event
    rw [settled_append, inFlight_append, pastStore, pastFlight] at soundAfter
    rw [pastStore, pastFlight] at found
    have intact : (Recovery.step cipher key1 lower intOf hosts host event).2.process ≠ .failed := by
      intro failed
      rw [Sound, failed] at soundAfter
      exact soundAfter
    have unacknowledged : acknowledgedPost (⟨host, event, (Recovery.step cipher key1 lower intOf hosts host event).1,
        (Recovery.step cipher key1 lower intOf hosts host event).2⟩ : Step floats) = none := by
      rw [acknowledgedPost, output]
      cases host.process with
      | _ => rfl
    cases booted : bootedWith (⟨host, event, (Recovery.step cipher key1 lower intOf hosts host event).1,
        (Recovery.step cipher key1 lower intOf hosts host event).2⟩ : Step floats) with
    | some memory =>
      rw [booted] at soundAfter
      have before : host.process.starting = true := by
        rw [bootedWith] at booted
        split at booted
        · assumption
        · cases booted
      have waiting := booted
      rw [bootedWith, if_pos before] at waiting
      have idle : (Recovery.step cipher key1 lower intOf hosts host event).2.process.current = none := by
        rw [running_of_memory waiting]
        rfl
      refine ⟨memory, none, ⟨soundAfter, fun _ => rfl, fun post answer busy => by rw [idle] at busy; cases busy⟩, ?_⟩
      rw [pending, idle]
      refine .found ?_
      rw [pending, current_of_starting before]
      exact found memory booted
    | none =>
      rw [booted, unacknowledged] at soundAfter
      cases cut : cutOff (⟨host, event, (Recovery.step cipher key1 lower intOf hosts host event).1,
          (Recovery.step cipher key1 lower intOf hosts host event).2⟩ : Step floats) with
      | some post =>
        rw [cut] at soundAfter
        obtain ⟨rfl, was⟩ := cutOff_step cut
        refine ⟨store, some post, ⟨soundAfter, fun up => (by cases up), fun _ _ => tracks.answers_step .kill⟩, ?_⟩
        have samePending : pending (some post)
            (Recovery.step cipher key1 lower intOf hosts host .kill).2 = pending flight host := by
          rw [pending, pending, was]
          rfl
        rw [samePending]
        exact .same
      | none =>
        rw [cut] at soundAfter
        exact ⟨store, flight, ⟨soundAfter, fun up => tracks.grounded (starting_step booted intact up),
          fun _ _ => tracks.answers_step event⟩, tracks.moved_pending event⟩

/-- What a boot may find after a step it might have found before, unless a request has just come. -/
theorem Tracks.step {store : Store} {flight : Option (Post floats)} {host : Host floats}
    (tracks : Tracks cipher key1 lower intOf hosts store flight host) (event : Event floats) :
    ∃ next inAir, Tracks cipher key1 lower intOf hosts next inAir (step cipher key1 lower intOf hosts host event).2 ∧
      ∀ candidate, Possible lower intOf hosts next inAir (Recovery.step cipher key1 lower intOf hosts host event).2
          candidate →
        Possible lower intOf hosts store flight host candidate ∨
        ∃ post nonce, event = .post post nonce ∧ candidate = applied lower intOf hosts store post := by
  obtain ⟨next, inAir, tracksAfter, moved⟩ := tracks.moves event
  refine ⟨next, inAir, tracksAfter, fun candidate possible => ?_⟩
  replace possible : Candidate lower intOf hosts next
    (pending inAir (Recovery.step cipher key1 lower intOf hosts host event).2) candidate := possible
  generalize (Recovery.step cipher key1 lower intOf hosts host event).1 = answered at moved
  generalize pending inAir (Recovery.step cipher key1 lower intOf hosts host event).2 = left at moved possible
  cases moved with
  | same => exact .inl possible
  | @posted post nonce memory isPost running =>
    obtain rfl | ⟨other, same, rfl⟩ := possible
    · exact .inl (.inl rfl)
    · cases same
      exact .inr ⟨post, nonce, isPost, rfl⟩
  | @answered post answer busy =>
    obtain rfl | ⟨other, impossible, _⟩ := possible
    · exact .inl (.inr ⟨post, by rw [busy]; rfl, rfl⟩)
    · cases impossible
  | found before =>
    obtain rfl | ⟨other, impossible, _⟩ := possible
    · exact .inl before
    · cases impossible

/-- A property stays guarded, if the request that has come preserves it. -/
theorem Guarded.step {property : Store → Prop} {host : Host floats}
    (guarded : Guarded cipher key1 lower intOf hosts property host) (event : Event floats)
    (preserved : ∀ post nonce, event = .post post nonce → ∀ store, property store →
      property (applied lower intOf hosts store post)) :
    Guarded cipher key1 lower intOf hosts property (Recovery.step cipher key1 lower intOf hosts host event).2 := by
  obtain ⟨store, flight, tracks, holds⟩ := guarded
  obtain ⟨next, inAir, tracksAfter, found⟩ := tracks.step event
  refine ⟨next, inAir, tracksAfter, fun candidate possible => ?_⟩
  cases found candidate possible with
  | inl before => exact holds candidate before
  | inr posted =>
    obtain ⟨post, nonce, arrived, rfl⟩ := posted
    exact preserved post nonce arrived store (holds store (.inl rfl))

/-- What a server that waits for requests holds has the property. -/
theorem Guarded.running {property : Store → Prop} {host : Host floats} {memory : Store}
    (guarded : Guarded cipher key1 lower intOf hosts property host) (waiting : host.process = .running memory) :
    property memory := by
  obtain ⟨store, flight, tracks, holds⟩ := guarded
  have sound := tracks.sound
  rw [Sound, waiting] at sound
  rw [sound.1]
  exact holds store (.inl rfl)

theorem Tracks.intact {store : Store} {flight : Option (Post floats)} {host : Host floats}
    (tracks : Tracks cipher key1 lower intOf hosts store flight host) : host.process ≠ .failed := by
  intro failed
  have sound := tracks.sound
  rw [Sound, failed] at sound
  exact sound

theorem Guarded.intact {property : Store → Prop} {host : Host floats}
    (guarded : Guarded cipher key1 lower intOf hosts property host) : host.process ≠ .failed := by
  obtain ⟨store, flight, tracks, _⟩ := guarded
  exact tracks.intact

/-- The answer that a request is going to get is that of the route, to a store that a boot may find. -/
theorem Guarded.answers {property : Store → Prop} {host : Host floats} {post : Post floats}
    {answer : Except Failure Answer} (guarded : Guarded cipher key1 lower intOf hosts property host)
    (busy : host.process.current = some (post, answer)) :
    ∃ store, property store ∧ (handle lower intOf ⟨hosts, store, store⟩ post.request).1 = some answer := by
  obtain ⟨store, flight, tracks, holds⟩ := guarded
  exact ⟨store, holds store (.inl rfl), tracks.answers post answer busy⟩

/-- What an acknowledged request has come to is guarded from its answer on. -/
theorem Guarded.acknowledge {before property : Store → Prop} {host : Host floats} {memory : Store}
    {post : Post floats} {answer : Except Failure Answer}
    (guarded : Guarded cipher key1 lower intOf hosts before host)
    (answering : host.process = .answering memory post answer)
    (comesTo : ∀ store, before store → (handle lower intOf ⟨hosts, store, store⟩ post.request).1 = some answer →
      property (applied lower intOf hosts store post)) :
    Guarded cipher key1 lower intOf hosts property (Recovery.step cipher key1 lower intOf hosts host .answer).2 := by
  obtain ⟨store, flight, tracks, holds⟩ := guarded
  have answered := tracks.answers post answer (by rw [answering]; rfl)
  have sound := tracks.sound
  rw [Sound, answering] at sound
  obtain ⟨next, inAir, tracksAfter, _⟩ := tracks.step .answer
  have running : (Recovery.step cipher key1 lower intOf hosts host .answer).2.process = .running memory := by
    simp only [Recovery.step, answering]
  have soundAfter := tracksAfter.sound
  rw [Sound, running] at soundAfter
  refine ⟨next, inAir, tracksAfter, fun candidate possible => ?_⟩
  rw [Possible, running, tracksAfter.grounded (by rw [running]; rfl)] at possible
  obtain rfl | ⟨other, impossible, _⟩ := possible
  · rw [← soundAfter.1, sound.1]
    exact comesTo store (holds store (.inl rfl)) answered
  · cases impossible

/-- Without a process there is no KEY1, until one is started. -/
theorem step_of_down {host : Host floats} (down : host.process = .down) {event : Event floats}
    (unstarted : ∀ secretsNonce sharesNonce, event ≠ .start secretsNonce sharesNonce) (other : String) :
    Recovery.step cipher key1 lower intOf hosts host event = Recovery.step cipher other lower intOf hosts host event := by
  cases event with
  | start secretsNonce sharesNonce => exact absurd rfl (unstarted secretsNonce sharesNonce)
  | _ => simp only [Recovery.step, down]

/-! ## What a request does to the shares -/

/-- A share is written when it has passed the checks and there is none under its uuid. -/
theorem applied_shares (store : Store) (post : Post floats) :
    (applied lower intOf hosts store post).shares = store.shares ∨
    ∃ shareUuid commonName document, post = .share shareUuid commonName (.ok document) ∧
      checkShare lower shareUuid commonName (.ok document.value) = .ok document.value ∧
      Dict.get store.shares shareUuid = none ∧
      (applied lower intOf hosts store post).shares = Dict.set store.shares shareUuid document.value := by
  cases post with
  | share shareUuid commonName body =>
    show (storeShare lower ⟨hosts, store, store⟩ shareUuid commonName (body.map Document.value) true).2.disk.shares = _ ∨
      _
    cases checked : checkShare lower shareUuid commonName (body.map Document.value) with
    | error failure =>
      left
      rw [storeShare_unchecked true checked]
    | ok payload =>
      have bodyRead := (checkShare_eq_ok checked).1
      cases body with
      | error failure => cases bodyRead
      | ok document =>
        cases bodyRead
        obtain ⟨existing, _, stored⟩ | ⟨absent, stored⟩ :=
          @storeShare_checked lower ⟨hosts, store, store⟩ _ _ _ _ true checked
        · left
          rw [stored]
        · right
          refine ⟨shareUuid, commonName, document, rfl, checked, absent, ?_⟩
          show (storeShare lower ⟨hosts, store, store⟩ shareUuid commonName (.ok document.value) true).2.disk.shares = _
          rw [show storeShare lower ⟨hosts, store, store⟩ shareUuid commonName (.ok document.value) true = _ from stored]
          rfl
  | secret name commonName body now =>
    left
    show (storeSecretMetadata lower intOf ⟨hosts, store, store⟩ name commonName (body.map Document.value) now
      true).2.disk.shares = _
    cases checked : checkMetadata lower intOf ⟨hosts, store, store⟩ commonName (body.map Document.value) now with
    | error failure => rw [storeSecretMetadata_unchecked true checked]
    | ok record =>
      rw [storeSecretMetadata_checked true checked]
      rfl

/-- What is stored under a uuid stays. -/
theorem applied_keeps {store : Store} {uuid : String} {share : Json} (post : Post floats)
    (stored : Dict.get store.shares uuid = some share) :
    Dict.get (applied lower intOf hosts store post).shares uuid = some share := by
  obtain unchanged | ⟨shareUuid, _, _, _, _, absent, written⟩ := @applied_shares lower intOf hosts _ store post
  · rw [unchanged, stored]
  · rw [written, Dict.get_set_ne, stored]
    rintro rfl
    rw [stored] at absent
    cases absent

/-- An acknowledged share was stored already, or has just been. -/
theorem acknowledged_share {store : Store} {shareUuid : String} {commonName : Option String}
    {body : Except Failure (Document floats)} {answer : Answer}
    (answered : (handle lower intOf ⟨hosts, store, store⟩ (Post.share shareUuid commonName body).request).1 =
      some (.ok answer)) :
    ∃ document, body = .ok document ∧
      checkShare lower shareUuid commonName (.ok document.value) = .ok document.value ∧
      ((∃ existing, Dict.get store.shares shareUuid = some existing ∧ existing.equals document.value = true) ∨
        (applied lower intOf hosts store (.share shareUuid commonName body)).shares =
          Dict.set store.shares shareUuid document.value) := by
  have routeAnswered : (storeShare lower ⟨hosts, store, store⟩ shareUuid commonName (body.map Document.value) true).1 =
      .ok answer := Option.some.inj answered
  cases checked : checkShare lower shareUuid commonName (body.map Document.value) with
  | error failure =>
    rw [storeShare_unchecked true checked] at routeAnswered
    cases routeAnswered
  | ok payload =>
    have bodyRead := (checkShare_eq_ok checked).1
    cases body with
    | error failure => cases bodyRead
    | ok document =>
      cases bodyRead
      refine ⟨document, rfl, checked, ?_⟩
      obtain ⟨existing, found, stored⟩ | ⟨absent, stored⟩ :=
        @storeShare_checked lower ⟨hosts, store, store⟩ _ _ _ _ true checked
      · refine .inl ⟨existing, found, ?_⟩
        rw [stored] at routeAnswered
        by_contra different
        rw [if_neg different] at routeAnswered
        cases routeAnswered
      · right
        show (storeShare lower ⟨hosts, store, store⟩ shareUuid commonName ((Except.ok document).map Document.value)
          true).2.disk.shares = _
        rw [stored]
        rfl

end Guarding

end SecretWeb.Server.Recovery
