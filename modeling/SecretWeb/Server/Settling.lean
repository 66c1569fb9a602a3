import SecretWeb.Machine.Reaching
import SecretWeb.Server.Guarding
import SecretWeb.Python.Text

/-! # A server that nobody disturbs

A write that is not cut off can be carried through from wherever it is.  So a server that is up
gets to where it waits for requests, or has the answer to the one that it is at. -/

namespace SecretWeb.Storage

open SecretWeb.Data SecretWeb.Python

/-- How many steps are left of a write. -/
def Writing.rank : Writing → Nat
  | .starting => 4
  | .opened _ _ => 3
  | .flushed _ => 2
  | .synced _ => 1
  | .replaced => 0

/-- There is a name that `mkstemp` can draw. -/
theorem exists_unique_free (directory : Directory) : ∃ unique, Dict.get directory (tmpName unique) = none := by
  have different : Function.Injective fun count : Nat => tmpName (toString count) := by
    intro first second same
    have unsuffixed := (String.append_left_inj _).mp same
    exact toString_injective ((String.append_right_inj _).mp unsuffixed)
  obtain ⟨count, _, free, _⟩ := Dict.exists_get_none directory different
  exact ⟨toString count, free⟩

/-- A step is due as long as the write is not through. -/
theorem Writing.exists_due {path : String} {data : Bytes} {directory : Directory} {writing : Writing}
    (holds : writing.Holds data directory) (going : writing ≠ .replaced) :
    ∃ step, (writing.step path data directory step).1.rank < writing.rank := by
  cases writing with
  | starting =>
    obtain ⟨unique, free⟩ := exists_unique_free directory
    exact ⟨.mkstemp unique, by simp [Writing.step, free, Writing.rank]⟩
  | opened tmp count => exact ⟨.flush, by simp [Writing.step, Writing.rank]⟩
  | flushed tmp => exact ⟨.fsync, by simp [Writing.step, Writing.rank]⟩
  | synced tmp => exact ⟨.replace, by simp [Writing.step, holds.2, Writing.rank]⟩
  | replaced => exact absurd rfl going

end SecretWeb.Storage

namespace SecretWeb.Server.Recovery

open SecretWeb.Data SecretWeb.Python SecretWeb.Python.JsonText SecretWeb.Storage SecretWeb.Machine

open SecretWeb.CryptoFile (Nonce)

section Settling

variable {cipher : Cipher} {key1 : String} {lower : String → String} {intOf : String → Option Int} {hosts : Json}
  {floats : FloatText}

/-- How many steps are left of the writes that the process is at. -/
def Process.rank : Process floats → Nat
  | .creatingSecrets _ _ writing => 10 + writing.rank
  | .creatingShares _ _ writing => 5 + writing.rank
  | .saving _ _ _ _ _ writing => 1 + writing.rank
  | _ => 0

def Event.Work (event : Event floats) : Prop := ∃ writeStep, event = .work writeStep

theorem rank_booted (secrets shares : Json) : (booted floats secrets shares).rank = 0 := by
  unfold booted
  split
  · rfl
  · rfl

theorem rank_ensureShares_le (directory : Directory) (secrets : Json) (nonce : Nonce) :
    (ensureShares cipher floats key1 directory secrets nonce).rank ≤ 9 := by
  unfold ensureShares
  split
  · split
    · simp [Process.rank]
    · simp [rank_booted]
  · simp [Process.rank, Writing.rank]

theorem rank_after_lt {done : Process floats} {going : Writing → Process floats} {writing next : Writing} {bound : Nat}
    (ranked : ∀ writing, (going writing).rank = bound + writing.rank) (doneLower : done.rank < bound)
    (lower : next.rank < writing.rank) : (after done going next).rank < (going writing).rank := by
  rw [ranked]
  cases next with
  | replaced =>
    show done.rank < _
    omega
  | _ =>
    simp only [after, ranked]
    omega

/-- A step of the write lowers the rank. -/
theorem Tracks.exists_due {store : Store} {flight : Option (Post floats)} {host : Host floats}
    (tracks : Tracks cipher key1 lower intOf hosts store flight host) (unsettled : host.process.rank ≠ 0) :
    ∃ writeStep, (Recovery.step cipher key1 lower intOf hosts host (.work writeStep)).2.process.rank <
      host.process.rank := by
  obtain ⟨directory, process⟩ := host
  have sound := tracks.sound
  cases process with
  | creatingSecrets sharesNonce bytes writing =>
    obtain ⟨_, _, _, _, pending⟩ := sound
    obtain ⟨due, lower⟩ := Writing.exists_due pending.holds pending.going
    exact ⟨due, @rank_after_lt floats _ (.creatingSecrets sharesNonce bytes) _ _ 10 (fun _ => rfl)
      (Nat.lt_succ_of_le (rank_ensureShares_le _ _ _)) lower⟩
  | creatingShares secrets bytes writing =>
    obtain ⟨_, _, _, _, _, pending⟩ := sound
    obtain ⟨due, lower⟩ := Writing.exists_due pending.holds pending.going
    exact ⟨due, @rank_after_lt floats _ (.creatingShares secrets bytes) _ _ 5 (fun _ => rfl)
      (by rw [rank_booted]; omega) lower⟩
  | saving memory post file answer bytes writing =>
    obtain ⟨_, _, _, _, pending⟩ := sound
    obtain ⟨due, lower⟩ := Writing.exists_due pending.holds pending.going
    exact ⟨due, @rank_after_lt floats _ (.saving memory post file answer bytes) _ _ 1 (fun _ => rfl) Nat.one_pos lower⟩
  | _ => exact absurd rfl unsettled

theorem up_booted (secrets shares : Json) : booted floats secrets shares ≠ .down := by
  unfold booted
  split
  · simp
  · simp

theorem up_ensureShares (directory : Directory) (secrets : Json) (nonce : Nonce) :
    ensureShares cipher floats key1 directory secrets nonce ≠ .down := by
  unfold ensureShares
  split
  · split
    · simp
    · exact up_booted _ _
  · simp

theorem up_ensureSecrets (directory : Directory) (secretsNonce sharesNonce : Nonce) :
    ensureSecrets cipher floats key1 directory secretsNonce sharesNonce ≠ .down := by
  unfold ensureSecrets
  split
  · split
    · simp
    · exact up_ensureShares _ _ _
  · simp

theorem up_after {done : Process floats} {going : Writing → Process floats} {writing : Writing}
    (doneUp : done ≠ .down) (goingUp : ∀ writing, going writing ≠ .down) : after done going writing ≠ .down := by
  cases writing with
  | replaced => exact doneUp
  | _ => exact goingUp _

/-- Only a kill takes a process away. -/
theorem up_step {host : Host floats} {event : Event floats} (up : host.process ≠ .down) (notKill : event ≠ .kill) :
    (step cipher key1 lower intOf hosts host event).2.process ≠ .down := by
  obtain ⟨directory, process⟩ := host
  cases event with
  | kill => exact absurd rfl notKill
  | start secretsNonce sharesNonce =>
    cases process with
    | down => exact absurd rfl up
    | _ => exact up
  | work writeStep =>
    cases process with
    | creatingSecrets sharesNonce bytes writing => exact up_after (up_ensureShares _ _ _) fun _ => by simp
    | creatingShares secrets bytes writing => exact up_after (up_booted _ _) fun _ => by simp
    | saving memory post file answer bytes writing => exact up_after (by simp) fun _ => by simp
    | _ => exact up
  | post post nonce =>
    cases process with
    | running memory =>
      simp only [step]
      split
      · simp
      · simp
    | _ => exact up
  | answer =>
    cases process with
    | answering memory post answer => simp [step]
    | _ => exact up
  | elsewhere name bytes =>
    simp only [step]
    split
    · exact up
    · exact up

/-- A process that is up and has no write to carry through waits for requests, or answers. -/
theorem settled_cases {process : Process floats} (up : process ≠ .down) (intact : process ≠ .failed)
    (settled : process.rank = 0) :
    (∃ memory, process = .running memory) ∨ ∃ memory post answer, process = .answering memory post answer := by
  cases process with
  | down => exact absurd rfl up
  | failed => exact absurd rfl intact
  | running memory => exact .inl ⟨memory, rfl⟩
  | answering memory post answer => exact .inr ⟨memory, post, answer, rfl⟩
  | _ =>
    simp only [Process.rank] at settled
    omega

/-- Left alone, a server that is up comes to wait for requests, or to answer the one it is at. -/
theorem Tracks.settles {store : Store} {flight : Option (Post floats)} {host : Host floats}
    (tracks : Tracks cipher key1 lower intOf hosts store flight host) (up : host.process ≠ .down) :
    ∃ after, Reaches (Recovery.step cipher key1 lower intOf hosts) Event.Work host after ∧
      ((host.process.current = none ∧ ∃ memory, after.process = .running memory) ∨
        ∃ memory post answer, host.process.current = some (post, answer) ∧
          after.process = .answering memory post answer) := by
  have kept : ∀ (state : Host floats) event, Event.Work event →
      ((∃ store flight, Tracks cipher key1 lower intOf hosts store flight state) ∧ state.process ≠ .down ∧
        state.process.current = host.process.current) →
      (∃ store flight, Tracks cipher key1 lower intOf hosts store flight
          (Recovery.step cipher key1 lower intOf hosts state event).2) ∧
        (Recovery.step cipher key1 lower intOf hosts state event).2.process ≠ .down ∧
        (Recovery.step cipher key1 lower intOf hosts state event).2.process.current = host.process.current := by
    rintro state _ ⟨writeStep, rfl⟩ ⟨⟨store, flight, tracks⟩, up, same⟩
    obtain ⟨next, inAir, tracksAfter, _⟩ := tracks.step (.work writeStep)
    refine ⟨⟨next, inAir, tracksAfter⟩, up_step up (by simp), ?_⟩
    cases busy : host.process.current with
    | some current => exact current_kept (same.trans busy) (by simp) (by simp)
    | none =>
      obtain idle | unchanged | ⟨_, _, _, _, impossible, _⟩ :=
        @current_step cipher key1 lower intOf hosts _ state (.work writeStep)
      · exact idle
      · exact unchanged.trans (same.trans busy)
      · cases impossible
  have start : (∃ store flight, Tracks cipher key1 lower intOf hosts store flight host) ∧ host.process ≠ .down ∧
      host.process.current = host.process.current := ⟨⟨store, flight, tracks⟩, up, rfl⟩
  obtain ⟨after, reaches, settled⟩ : ∃ after, Reaches (Recovery.step cipher key1 lower intOf hosts) Event.Work host after ∧
      after.process.rank = 0 := by
    refine reaches_of_rank kept (fun state => state.process.rank) (fun state holds unsettled => ?_) start
    obtain ⟨⟨store, flight, tracks⟩, _⟩ := holds
    obtain ⟨writeStep, lower⟩ := tracks.exists_due unsettled
    exact ⟨_, reaches_step state ⟨writeStep, rfl⟩, lower⟩
  obtain ⟨⟨_, _, tracksAfter⟩, upAfter, same⟩ := reaches.kept kept start
  refine ⟨after, reaches, ?_⟩
  obtain ⟨memory, running⟩ | ⟨memory, post, answer, answering⟩ := settled_cases upAfter tracksAfter.intact settled
  · refine .inl ⟨?_, memory, running⟩
    rw [← same, running]
    rfl
  · refine .inr ⟨memory, post, answer, ?_, answering⟩
    rw [← same, answering]
    rfl

end Settling

end SecretWeb.Server.Recovery
