import SecretWeb.Client.Collect
import SecretWeb.Client.Recording
import SecretWeb.Network.Publishing
import SecretWeb.Server.Copies
import Mathlib.Logic.Function.Basic

/-! # A host, its commands and the servers

The store-secret commands of one host run side by side.  Between any two of their requests the
servers may be asked by anybody else, restart, or be out of reach. -/

namespace SecretWeb.Network

open SecretWeb.Data SecretWeb.Python SecretWeb.Python.JsonText SecretWeb.Client SecretWeb.Server SecretWeb.Shamir
  SecretWeb.HostsData

/-! ## JSON on the wire -/

/-- A response as its client reads it: its document is sent as text. -/
def delivered (floats : FloatText) : Reply → Reply
  | .response status (.document document) =>
    .response status (match (decodeUtf8 (encodeUtf8 (dumps floats document))).bind (JsonText.loads floats.float) with
      | some read => .document read
      | none => .notJson)
  | reply => reply

/-- A post to `/secrets/<name>`, from its bytes. -/
def postSecretBody (floats : FloatText) (lower : String → String) (intOf : String → Option Int)
    (decodePath : Bytes → String) (server : Server) (secretName : String) (commonName : Option String) (body : Bytes)
    (now : String) (saved : Bool) : Reply × Server :=
  match routed decodePath "/secrets/" secretName with
  | none => (notFound, server)
  | some name =>
    let (answer, after) :=
      storeSecretMetadata lower intOf server name commonName (requestJson floats.float body) now saved
    (reply answer, after)

/-! ## The host and the others -/

/-- A host with its `hosts.json` and its certificate, and where an address leads; `own` is its
own server. -/
structure Site (Place : Type) where
  floats : FloatText
  lower : String → String
  intOf : String → Option Int
  decodePath : Bytes → String
  formatted : Json → String
  sha256 : Bytes → String
  hosts : Json
  commonName : Option String
  locate : Json → Place
  own : Place
  decoded : ∀ text, decodePath (encodeUtf8 text) = text
  formattedText : ∀ text, formatted (.str text) = text

/-- A command under way. -/
structure Running where
  command : StoreCommand
  publication : Publication
  phase : Phase

structure World (Place : Type) where
  servers : Place → Server
  commands : List Running

/-- A command is started, or the command at an index makes its next request, or a server handles
a request of somebody else. -/
inductive Event (Place : Type) where
  | start (command : StoreCommand)
  | publish (index : Nat) (fate : Fate)
  | record (index : Nat) (now : String) (fate : Fate)
  | other (place : Place) (request : Request)

inductive Outcome where
  | nothing
  | posted (index : Nat) (peer : Json) (result : Except PyException Unit)
  | recorded (index : Nat) (command : StoreCommand) (result : Except PyException Unit)

namespace Site

variable {Place : Type} (site : Site Place)

/-- The request of `store_share`. -/
def postShare (server : Server) (post : Post) (saved : Bool) : Reply × Server :=
  let (reply, after) := postShareBody site.floats site.lower site.decodePath server (site.formatted post.shareUuid)
    site.commonName (encodeUtf8 (dumps site.floats post.participantData)) saved
  (delivered site.floats reply, after)

/-- The request of `record_secret`. -/
def postSecret (server : Server) (name : String) (body : Json) (now : String) (saved : Bool) : Reply × Server :=
  let (reply, after) := postSecretBody site.floats site.lower site.intOf site.decodePath server name site.commonName
    (encodeUtf8 (dumps site.floats body)) now saved
  (delivered site.floats reply, after)

/-- The request of `retrieve_share`; there is none for a peer without an address. -/
def ask (world : World Place) (peer uuid : Json) : Reply :=
  match peer.getItem "address" with
  | .ok address =>
    delivered site.floats (getShare site.lower site.decodePath (world.servers (site.locate address))
      (site.formatted uuid) site.commonName)
  | .error _ => .osError

/-- The request of `get_secret_metadata`. -/
def lookup (world : World Place) (name : String) : Reply :=
  delivered site.floats (getSecret site.lower site.decodePath (world.servers site.own) name site.commonName)

variable [DecidableEq Place]

def step (world : World Place) : Event Place → Outcome × World Place
  | .start command =>
    match prepare site.sha256 site.hosts command with
    | .ok (some publication) =>
      (.nothing, { world with commands := world.commands ++
        [⟨command, publication, Phase.begin publication.treshold publication.deliveries 0⟩] })
    | _ => (.nothing, world)
  -- the next post of the command: what becomes of it, the fate decides
  | .publish index fate =>
    match world.commands[index]? with
    | some ⟨command, publication, .publishing post rest successes⟩ =>
      let place := site.locate post.address
      let (reply, after) := exchange fate (world.servers place) (site.postShare (world.servers place) post)
      (.posted index post.peer (Client.storeShare reply),
        { servers := Function.update world.servers place after
          commands := world.commands.set index
            ⟨command, publication, Phase.published publication.treshold rest successes reply⟩ })
    | _ => (.nothing, world)
  | .record index now fate =>
    match world.commands[index]? with
    | some ⟨command, publication, .recording successes⟩ =>
      let (reply, after) := exchange fate (world.servers site.own) (site.postSecret (world.servers site.own)
        command.name (metadata publication.uuid publication.treshold successes) now)
      (.recorded index command (Client.recorded reply),
        { servers := Function.update world.servers site.own after
          commands := world.commands.set index ⟨command, publication, .exited (Client.recorded reply)⟩ })
    | _ => (.nothing, world)
  -- a request of somebody else, to any server
  | .other place request =>
    let (_, after) := handle site.lower site.intOf (world.servers place) request
    (.nothing, { world with servers := Function.update world.servers place after })

end Site

/-! ## What goes over the wire -/

section Wire

variable {floats : FloatText} {document : Json}

theorem delivered_document (writable : Writable floats document) (status : Nat) :
    delivered floats (.response status (.document document)) = .response status (.document document) := by
  simp only [delivered, decodeUtf8_encodeUtf8, Option.bind_some, loads_dumps writable]

theorem delivered_failure (floats : FloatText) (failure : Failure) :
    delivered floats (reply (.error failure)) = reply (.error failure) := by
  cases failure with
  | aborted status text => rfl
  | raised exception => rfl

/-- A body is read as it was sent, or the request ends before the route. -/
theorem requestJson_dumps (writable : Writable floats document) :
    requestJson floats.float (encodeUtf8 (dumps floats document)) = .ok document ∨
      ∃ failure, failure.Errs ∧ requestJson floats.float (encodeUtf8 (dumps floats document)) = .error failure := by
  by_cases fits : (encodeUtf8 (dumps floats document)).length ≤ MEMFILE_MAX
  · exact .inl (requestJson_fits writable fits)
  · exact .inr ⟨.aborted 413 "Request entity too large", ⟨by decide, by decide⟩,
      requestJson_large floats.float (by omega)⟩

end Wire

/-! ## One post -/

/-- What a post of this share under this uuid may do to a server: it writes nothing else, it
writes only where there is nothing, and it is acknowledged only when the share is kept, or
when its equal was there. -/
structure ShareSent (before after : Server) (uuid : String) (record : Json) (reply : Reply) : Prop where
  hosts : after.hosts = before.hosts
  secrets : secretCopies after = secretCopies before
  copies : ∃ written, Copies.Step (shareCopies before) written (shareCopies after) ∧
    ∀ key value, written = some (key, value) → key = uuid ∧ value = record ∧ Dict.get before.memory.shares key = none
  acknowledged : Client.storeShare reply = .ok () → (shareCopies after).Kept uuid (· = record) ∨
    ∃ existing, Dict.get before.memory.shares uuid = some existing ∧ existing.equals record = true

/-- What a post of this record under this name may do to a server. -/
structure RecordSent (before after : Server) (name : String) (record : Json) (reply : Reply) : Prop where
  hosts : after.hosts = before.hosts
  shares : shareCopies after = shareCopies before
  copies : ∃ written, Copies.Step (secretCopies before) written (secretCopies after) ∧
    ∀ key value, written = some (key, value) → key = name ∧ value = record
  acknowledged : Client.recorded reply = .ok () → (secretCopies after).Kept name (· = record)

theorem ShareSent.of_fails {server : Server} {uuid : String} {record : Json} {reply : Reply} (fails : Fails reply) :
    ShareSent server server uuid record reply where
  hosts := rfl
  secrets := rfl
  copies := ⟨none, .same, by simp⟩
  acknowledged := by
    intro acknowledged
    obtain ⟨exception, failed, _⟩ := storeShare_of_fails fails
    cases failed.symm.trans acknowledged

theorem RecordSent.of_fails {server : Server} {name : String} {record : Json} {reply : Reply} (fails : Fails reply) :
    RecordSent server server name record reply where
  hosts := rfl
  shares := rfl
  copies := ⟨none, .same, by simp⟩
  acknowledged := by
    intro acknowledged
    cases (recorded_of_fails fails).symm.trans acknowledged

/-- A reply that gets lost changes nothing but what its client knows. -/
theorem ShareSent.exchange {server after : Server} {uuid : String} {record : Json} {reply : Reply} {fate : Fate}
    {serve : Bool → Reply × Server} (served : ∀ saved, ShareSent server (serve saved).2 uuid record (serve saved).1)
    (exchanged : exchange fate server serve = (reply, after)) : ShareSent server after uuid record reply := by
  cases exchange_cases exchanged with
  | inl lost =>
    obtain ⟨rfl, fails⟩ := lost
    exact .of_fails fails
  | inr handled =>
    obtain ⟨saved, rfl, told⟩ := handled
    have sent := served saved
    refine ⟨sent.hosts, sent.secrets, sent.copies, fun acknowledged => ?_⟩
    cases told with
    | inl same => exact sent.acknowledged (same ▸ acknowledged)
    | inr fails =>
      obtain ⟨exception, failed, _⟩ := storeShare_of_fails fails
      cases failed.symm.trans acknowledged

theorem RecordSent.exchange {server after : Server} {name : String} {record : Json} {reply : Reply} {fate : Fate}
    {serve : Bool → Reply × Server} (served : ∀ saved, RecordSent server (serve saved).2 name record (serve saved).1)
    (exchanged : exchange fate server serve = (reply, after)) : RecordSent server after name record reply := by
  cases exchange_cases exchanged with
  | inl lost =>
    obtain ⟨rfl, fails⟩ := lost
    exact .of_fails fails
  | inr handled =>
    obtain ⟨saved, rfl, told⟩ := handled
    have sent := served saved
    refine ⟨sent.hosts, sent.shares, sent.copies, fun acknowledged => ?_⟩
    cases told with
    | inl same => exact sent.acknowledged (same ▸ acknowledged)
    | inr fails => cases (recorded_of_fails fails).symm.trans acknowledged

namespace Site

variable {Place : Type} {site : Site Place} {server : Server}

theorem postShare_sent {post : Post} {uuid : String} (plain : Plain uuid) (named : post.shareUuid = .str uuid)
    (writable : Writable site.floats post.participantData) (saved : Bool) :
    ShareSent server (site.postShare server post saved).2 uuid post.participantData
      (site.postShare server post saved).1 := by
  have arrives : routed site.decodePath "/shares/" uuid = some uuid :=
    routed_of_plain site.decodePath site.decoded (baseCharacter_of_all (by decide)) plain
  have bodyRead := requestJson_dumps writable
  simp only [postShare, postShareBody, named, site.formattedText, arrives]
  generalize requestJson site.floats.float (encodeUtf8 (dumps site.floats post.participantData)) = body at bodyRead ⊢
  have same : ∀ value, body = .ok value → value = post.participantData := by
    intro value read
    cases bodyRead with
    | inl whole => exact Except.ok.inj (read.symm.trans whole)
    | inr broken =>
      obtain ⟨failure, _, unread⟩ := broken
      cases read.symm.trans unread
  have unread : ∀ failure, body = .error failure → failure.Errs := by
    intro failure refused
    cases bodyRead with
    | inl whole => cases whole.symm.trans refused
    | inr broken =>
      obtain ⟨reason, errs, broke⟩ := broken
      cases refused.symm.trans broke
      exact errs
  cases stored : Server.storeShare site.lower server uuid site.commonName body saved with
  | mk answer after =>
    obtain ⟨hosts, secrets, written, copied, wrote⟩ := storeShare_copies stored
    refine ⟨hosts, secrets, ⟨written, copied, fun key value wrotten => ?_⟩, fun acknowledged => ?_⟩
    · obtain ⟨keyed, read, absent⟩ := wrote key value wrotten
      exact ⟨keyed, same value read, absent⟩
    · cases answer with
      | error failure =>
        have errs : failure.Errs := storeShare_errs unread (congrArg Prod.fst stored)
        obtain ⟨exception, failed, _⟩ := storeShare_of_fails (fails_reply errs)
        rw [delivered_failure, failed] at acknowledged
        cases acknowledged
      | ok answer =>
        obtain ⟨payload, read, kept⟩ := storeShare_acknowledged stored
        obtain rfl := same payload read
        exact kept

theorem postSecret_sent {name : String} {uuid : String} {treshold : Int} {successes : Nat} {now : String}
    (plain : Plain name) (saved : Bool) :
    RecordSent server (site.postSecret server name (metadata (.str uuid) treshold successes) now saved).2 name
      (secretRecord (.str uuid) treshold successes now)
      (site.postSecret server name (metadata (.str uuid) treshold successes) now saved).1 := by
  have arrives : routed site.decodePath "/secrets/" name = some name :=
    routed_of_plain site.decodePath site.decoded (baseCharacter_of_all (by decide)) plain
  have names : ["uuid", "treshold", "shares_saved"].Nodup := by decide
  have writable : Writable site.floats (metadata (.str uuid) treshold successes) :=
    ⟨names, trivial, trivial, trivial, trivial⟩
  have bodyRead := requestJson_dumps writable
  simp only [postSecret, postSecretBody, arrives]
  generalize requestJson site.floats.float
    (encodeUtf8 (dumps site.floats (metadata (.str uuid) treshold successes))) = body at bodyRead ⊢
  have checks : checkMetadata site.lower site.intOf server site.commonName body now =
        .ok (secretRecord (.str uuid) treshold successes now) ∨
      ∃ failure, failure.Errs ∧
        checkMetadata site.lower site.intOf server site.commonName body now = .error failure := by
    cases bodyRead with
    | inl whole =>
      rw [whole]
      by_cases accepted : Accepted site.lower site.commonName server
      · exact .inl (checkMetadata_metadata accepted)
      · exact .inr (checkMetadata_foreign accepted)
    | inr broken =>
      obtain ⟨failure, errs, unread⟩ := broken
      exact .inr ⟨failure, errs, by rw [unread]; rfl⟩
  cases checks with
  | inl checked =>
    have stored := @storeSecretMetadata_checked site.lower site.intOf server name site.commonName body now _ saved
      checked
    rw [stored]
    cases saved with
    | true =>
      exact ⟨rfl, rfl, ⟨_, .write name _ true, fun key value wrote => by cases wrote; exact ⟨rfl, rfl⟩⟩, fun _ =>
        ⟨⟨_, Dict.get_set_self _ _ _, rfl⟩, ⟨_, Dict.get_set_self _ _ _, rfl⟩⟩⟩
    | false =>
      refine ⟨rfl, rfl, ⟨_, .write name _ false, fun key value wrote => by cases wrote; exact ⟨rfl, rfl⟩⟩,
        fun acknowledged => ?_⟩
      cases acknowledged
  | inr refused =>
    obtain ⟨failure, errs, refused⟩ := refused
    rw [storeSecretMetadata_unchecked saved refused]
    have fails : Fails (delivered site.floats (reply (.error failure))) :=
      (delivered_failure site.floats failure).symm ▸ fails_reply errs
    exact .of_fails fails

end Site

end SecretWeb.Network
