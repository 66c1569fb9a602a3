import SecretWeb.Server.Guarding

/-! # One request after the other

However a server is killed and booted, to its clients it is a store that carries out one
request after the other: what has been answered has been carried out once and in its turn, what
a kill has cut off has been carried out then or never. -/

namespace SecretWeb.Server.Recovery

open SecretWeb.Python SecretWeb.Python.JsonText SecretWeb.Storage

open SecretWeb.Machine (Transition run transitions invariant_of_history)

section Atomicity

variable {cipher : Cipher} {floats : FloatText} {key1 : String} (lower : String → String) (intOf : String → Option Int)
  (hosts : Json)

/-- A request that has been carried out, and the answer that its client has got. -/
structure Effect (floats : FloatText) where
  post : Post floats
  answer : Option (Except Failure Answer)

def resulting (store : Store) (effects : List (Effect floats)) : Store :=
  effects.foldl (fun store effect => applied lower intOf hosts store effect.post) store

/-- Every answer is that of the route to what the requests before it have left. -/
def Atomic : Store → List (Effect floats) → Prop
  | _, [] => True
  | store, effect :: rest =>
    (∀ answer, effect.answer = some answer →
      (handle lower intOf ⟨hosts, store, store⟩ effect.post.request).1 = some answer) ∧
    Atomic (applied lower intOf hosts store effect.post) rest

/-- The answer of an effect, with the request that it is given to. -/
def Effect.answered (effect : Effect floats) : Option (Post floats × Except Failure Answer) :=
  effect.answer.map fun answer => (effect.post, answer)

/-- The answer that is given in this step, with the request that it is given to. -/
def givenIn (transition : Step floats) : Option (Post floats × Except Failure Answer) :=
  match transition.before.process, transition.output with
  | .answering _ post _, some answer => some (post, answer)
  | _, _ => none

/-- The answers that have been given, each with its request. -/
def given (history : List (Step floats)) : List (Post floats × Except Failure Answer) :=
  history.filterMap givenIn

/-- The requests that the server has taken up. -/
def taken (history : List (Step floats)) : List (Post floats) :=
  history.filterMap fun transition =>
    match transition.input, transition.before.process with
    | .post post _, .running _ => some post
    | _, _ => none

variable {lower intOf hosts}

theorem atomic_append {store : Store} {effects : List (Effect floats)} {effect : Effect floats}
    (atomic : Atomic lower intOf hosts store effects)
    (answers : ∀ answer, effect.answer = some answer →
      (handle lower intOf ⟨hosts, resulting lower intOf hosts store effects, resulting lower intOf hosts store effects⟩
        effect.post.request).1 = some answer) :
    Atomic lower intOf hosts store (effects ++ [effect]) := by
  induction effects generalizing store with
  | nil => exact ⟨answers, trivial⟩
  | cons first rest inductionHypothesis => exact ⟨atomic.1, inductionHypothesis atomic.2 answers⟩

theorem resulting_append (store : Store) (effects : List (Effect floats)) (effect : Effect floats) :
    resulting lower intOf hosts store (effects ++ [effect]) =
      applied lower intOf hosts (resulting lower intOf hosts store effects) effect.post := by
  rw [resulting, List.foldl_append]
  rfl

/-- The effects explain the history: the host has settled on what they come to, and the pending
request has been taken up after all of them. -/
structure Explained (cipher : Cipher) (key1 : String) (lower : String → String) (intOf : String → Option Int)
    (hosts : Json) (store : Store) (effects : List (Effect floats)) (history : List (Step floats)) (host : Host floats) :
    Prop where
  atomic : Atomic lower intOf hosts store effects
  answered : given history = effects.filterMap Effect.answered
  tracks : ∃ flight, Tracks cipher key1 lower intOf hosts (resulting lower intOf hosts store effects) flight host ∧
    (effects.map Effect.post ++ (pending flight host).toList).Sublist (taken history)

/-- Nothing is given without an output. -/
theorem givenIn_of_silent {transition : Step floats} (silent : transition.output = none) : givenIn transition = none := by
  rw [givenIn, silent]
  split
  · rename_i impossible
    cases impossible
  · rfl

/-- The output of a step is given to the request that the process is at. -/
theorem givenIn_of_step {host : Host floats} {event : Event floats} {answer : Except Failure Answer} {post : Post floats}
    {expected : Except Failure Answer} (after : Host floats)
    (answers : (step cipher key1 lower intOf hosts host event).1 = some answer)
    (busy : host.process.current = some (post, expected)) :
    givenIn ⟨host, event, some answer, after⟩ = some (post, answer) := by
  obtain ⟨_, memory, other, answering⟩ := output_step answers
  rw [answering] at busy
  cases busy
  rw [givenIn, answering]

/-- The step lemma: one step has one effect at most. -/
theorem Explained.step {store : Store} {effects : List (Effect floats)} {history : List (Step floats)}
    {host : Host floats} (explained : Explained cipher key1 lower intOf hosts store effects history host)
    (event : Event floats) :
    ∃ more, Explained cipher key1 lower intOf hosts store more
      (history ++ [⟨host, event, (step cipher key1 lower intOf hosts host event).1,
        (step cipher key1 lower intOf hosts host event).2⟩])
      (Recovery.step cipher key1 lower intOf hosts host event).2 := by
  obtain ⟨flight, tracks, before⟩ := explained.tracks
  obtain ⟨next, inAir, tracksAfter, moved⟩ := tracks.moves event
  have sameGiven := explained.answered
  rw [given] at sameGiven
  have grows : (taken history).Sublist (taken (history ++ [⟨host, event, (Recovery.step cipher key1 lower intOf hosts
      host event).1, (Recovery.step cipher key1 lower intOf hosts host event).2⟩])) := by
    rw [taken, taken, List.filterMap_append]
    exact List.sublist_append_left _ _
  have effectsTaken : (effects.map Effect.post).Sublist (taken history) := (List.sublist_append_left _ _).trans before
  generalize output : (Recovery.step cipher key1 lower intOf hosts host event).1 = answered at moved grows ⊢
  generalize left : pending inAir (Recovery.step cipher key1 lower intOf hosts host event).2 = afterwards at moved
  cases moved with
  | same =>
    refine ⟨effects, explained.atomic, ?_, inAir, tracksAfter, ?_⟩
    · rw [given, List.filterMap_append, sameGiven]
      simp [givenIn_of_silent]
    · rw [left]
      exact before.trans grows
  | @posted post nonce memory isPost running =>
    subst isPost
    refine ⟨effects, explained.atomic, ?_, inAir, tracksAfter, ?_⟩
    · rw [given, List.filterMap_append, sameGiven]
      simp [givenIn_of_silent]
    · rw [left, taken, List.filterMap_append]
      refine effectsTaken.append ?_
      simp [running]
  | @answered post answer busy =>
    have wasPending : pending flight host = some post := by
      rw [pending, busy]
      rfl
    refine ⟨effects ++ [⟨post, some answer⟩], atomic_append explained.atomic ?_, ?_, inAir, ?_, ?_⟩
    · intro reply same
      cases same
      exact tracks.answers post answer busy
    · rw [given, List.filterMap_append, List.filterMap_append, sameGiven]
      simp [givenIn_of_step _ output busy, Effect.answered]
    · rw [resulting_append]
      exact tracksAfter
    · rw [left, List.map_append]
      rw [wasPending] at before
      simpa using before.trans grows
  | @found candidate possible =>
    obtain rfl | ⟨post, wasPending, rfl⟩ := possible
    · refine ⟨effects, explained.atomic, ?_, inAir, tracksAfter, ?_⟩
      · rw [given, List.filterMap_append, sameGiven]
        simp [givenIn_of_silent]
      · rw [left]
        simpa using effectsTaken.trans grows
    · -- a boot has come up with a request that a kill had cut off
      refine ⟨effects ++ [⟨post, none⟩], atomic_append explained.atomic (fun reply same => (by cases same)), ?_, inAir,
        ?_, ?_⟩
      · rw [given, List.filterMap_append, List.filterMap_append, sameGiven]
        simp [givenIn_of_silent, Effect.answered]
      · rw [resulting_append]
        exact tracksAfter
      · rw [left, List.map_append]
        rw [wasPending] at before
        simpa using before.trans grows

end Atomicity

/-- Over any number of POST requests, kills and boots a server answers as a store that carries out
whole requests: there is a list of requests, in the order in which they have been taken up and
each of them once, such that the answers that have been given, each to its request, are those of
the routes to each in its turn, and a server that waits for requests holds what they come to. -/
theorem served_atomically (cipher : Cipher) {floats : FloatText} (key1 : String) (lower : String → String)
    (intOf : String → Option Int) (hosts : Json) (store : Store) (directory : Directory)
    (held : Held cipher key1 floats directory store) (events : List (Event floats)) :
    let history := transitions (step cipher key1 lower intOf hosts) ⟨directory, .down⟩ events
    ∃ effects : List (Effect floats), Atomic lower intOf hosts store effects ∧
      given history = effects.filterMap Effect.answered ∧ (effects.map Effect.post).Sublist (taken history) ∧
      ∀ memory, (run (step cipher key1 lower intOf hosts) ⟨directory, .down⟩ events).process = .running memory →
        memory = resulting lower intOf hosts store effects := by
  intro history
  have start : Explained cipher key1 lower intOf hosts store [] ([] : List (Step floats)) ⟨directory, .down⟩ :=
    { atomic := trivial
      answered := rfl
      tracks := ⟨none, ⟨⟨store, .inl rfl, held⟩, fun _ => rfl, fun post answer busy => (by cases busy)⟩, .slnil⟩ }
  obtain ⟨effects, explained⟩ := (@invariant_of_history _ _ _ (step cipher key1 lower intOf hosts)
    (fun history host => ∃ effects, Explained cipher key1 lower intOf hosts store effects history host) (fun _ => True) []
    ⟨directory, .down⟩ events (fun history transition _ before stepped => by
      obtain ⟨effects, explained⟩ := before
      have after := explained.step transition.input
      rw [stepped] at after
      exact after) ⟨[], start⟩ (fun _ _ => trivial)).2
  obtain ⟨flight, tracks, takenBefore⟩ := explained.tracks
  refine ⟨effects, explained.atomic, explained.answered, (List.sublist_append_left _ _).trans takenBefore, ?_⟩
  intro memory running
  have sound := tracks.sound
  rw [Sound, running] at sound
  exact sound.1

/-- The run with the two kills has one effect after the other, too. -/
theorem served_atomically_interrupted : ∃ effects : List (Effect noFloats),
    Atomic id (fun _ => none) sampleHosts ⟨[], []⟩ effects ∧
    given interruptedTransitions = effects.filterMap Effect.answered ∧
    (effects.map Effect.post).Sublist (taken interruptedTransitions) ∧
    ∀ memory, (run (step sampleCipher "k" id (fun _ => none) sampleHosts) ⟨[], .down⟩ interruptedRun).process =
      .running memory → memory = resulting id (fun _ => none) sampleHosts ⟨[], []⟩ effects :=
  served_atomically sampleCipher "k" id (fun _ => none) sampleHosts ⟨[], []⟩ [] held_nil interruptedRun

end SecretWeb.Server.Recovery
