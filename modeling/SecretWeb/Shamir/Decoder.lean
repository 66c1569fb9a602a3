import SecretWeb.Shamir.Dealer

/-! # Collecting and combining shares

`populate_decoder` validates a submitted record against what the decoder has already
accepted and adopts its fields; `decode` interpolates every chunk at zero and checks the
checksum.  A call that raises still hands back the object as it then is. -/

namespace SecretWeb.Shamir

open SecretWeb.Data SecretWeb.Python

/-! ## Validating a submission -/

/-- A point of a share: a two-element list of integers. -/
def asPoint (point : Json) : Option Point :=
  match point.asList with
  | some [x, y] => do
    let xValue ← x.asInt
    let yValue ← y.asInt
    return (xValue, yValue)
  | _ => none

namespace ShamirSecret

/-- No accepted share has this x-coordinate in this chunk. -/
def freshX (self : ShamirSecret) (chunkIndex : Nat) (x : Int) : Bool :=
  self.decodingParticipantsKeys.all fun existing => (existing[chunkIndex]?).map Prod.fst != some x

/-- The loop over the points of a submitted share; `none` is `return False`. -/
def validatePoints (self : ShamirSecret) : (chunkIndex : Nat) → List Json → Option (List Point)
  | _, [] => some []
  | chunkIndex, point :: rest => do
    let (x, y) ← asPoint point
    if ¬(0 < x ∧ x < PRIME) then none
    else if !self.freshX chunkIndex x then none
    else
      let points ← validatePoints self (chunkIndex + 1) rest
      return (x, y) :: points

/-- `_validate_keys`: `none` where it returns `False`, and otherwise the share read as the
list of integer points that every later use of it sees. -/
def validateKeys (self : ShamirSecret) (keys : Json) : Option (List Point) :=
  match keys.asList with
  | none => none
  | some [] => none
  | some items =>
    match self.decodingParticipantsKeys with
    | [] => self.validatePoints 0 items
    | first :: _ => if items.length ≠ first.length then none else self.validatePoints 0 items

/-- The identity a record claims against the identity already known: the constructor's
name and owner for the first record, everything adopted from it for the later ones. -/
def inconsistent (self : ShamirSecret) (participantData : Json) (treshold shares : Int) :
    Except PyException Bool := do
  if self.decodingParticipantsKeys.isEmpty then
    let nameFailed ←
      if self.name.truthy then do
        let name ← participantData.getItem "name"
        pure (!self.name.equals name)
      else pure false
    let ownerFailed ←
      if self.owner.truthy then do
        let owner ← participantData.getItem "owner"
        pure (!self.owner.equals owner)
      else pure false
    return nameFailed || ownerFailed
  else
    let creationDate ← participantData.getItem "creation_date"
    let uuid ← participantData.getItem "uuid"
    let secretHash ← participantData.getItem "secret_hash"
    let name ← participantData.getItem "name"
    return !self.creationDate.equals creationDate || !self.uuid.equals uuid ||
      !self.secretHash.equals secretHash || !self.name.equals name ||
      self.shares ≠ shares || self.treshold ≠ treshold

/-- A submission that passed every test: its points and the integers it claims. -/
structure Checked where
  keys : List Point
  treshold : Int
  shares : Int

/-- Everything `populate_decoder` does before it changes the object. -/
def checkSubmission (self : ShamirSecret) (participantData : Json) :
    Except PyException Checked := do
  let tresholdValue ← participantData.getItem "treshold"
  let sharesValue ← participantData.getItem "shares"
  let keysValue ← participantData.getItem "keys"
  match tresholdValue.asInt, sharesValue.asInt with
  | some treshold, some shares =>
    if treshold < 2 ∨ shares < 2 ∨ treshold > shares then
      .error (.invalidShareError "treshold/shares out of valid range")
    else
      match self.validateKeys keysValue with
      | none =>
        .error (.invalidShareError
          "share is malformed, out of range, or duplicates an x-coordinate")
      | some keys => do
        let failed ← self.inconsistent participantData treshold shares
        if failed || decide (keys ∈ self.decodingParticipantsKeys) then
          .error (.invalidShareError
            "share is inconsistent with previously accepted shares for this secret")
        else .ok { keys := keys, treshold := treshold, shares := shares }
  | _, _ => .error (.invalidShareError "treshold/shares must be integers")

/-- The assignments after the append.  Each reads the record again, so a field missing
there raises with the assignments before it already made. -/
def adopt (self : ShamirSecret) (participantData : Json) (checked : Checked) :
    Except PyException Int × ShamirSecret :=
  let self := { self with
    decodingParticipantsKeys := self.decodingParticipantsKeys ++ [checked.keys] }
  match participantData.getItem "creation_date" with
  | .error exception => (.error exception, self)
  | .ok creationDate =>
    let self := { self with creationDate := creationDate }
    match participantData.getItem "owner" with
    | .error exception => (.error exception, self)
    | .ok owner =>
      let self := { self with owner := owner }
      match participantData.getItem "name" with
      | .error exception => (.error exception, self)
      | .ok name =>
        let self := { self with name := name }
        match participantData.getItem "uuid" with
        | .error exception => (.error exception, self)
        | .ok uuid =>
          let self := { self with uuid := uuid }
          match participantData.getItem "secret_hash" with
          | .error exception => (.error exception, self)
          | .ok secretHash =>
            let self := { self with
              secretHash := secretHash
              treshold := checked.treshold
              shares := checked.shares }
            let sharesNeeded := 0 - self.treshold + (self.decodingParticipantsKeys.length : Int)
            (.ok sharesNeeded,
              if 0 ≤ sharesNeeded then { self with readyToDecode := true } else self)

def populateDecoder (self : ShamirSecret) (participantData : Json) :
    Except PyException Int × ShamirSecret :=
  match self.checkSubmission participantData with
  | .error exception => (.error exception, self)
  | .ok checked => self.adopt participantData checked

end ShamirSecret

/-! ## Interpolation -/

/-- The inner loop of `_reconstruct_secret`: numerator and denominator of the weight of
share `j`. -/
def lagrangeTerms (shares : List Point) (j : Nat) (xj : Int) : Int × Int :=
  shares.zipIdx.foldl
    (fun (num, den) (shareI, i) =>
      if i ≠ j then (num * -shareI.1 % PRIME, den * (xj - shareI.1) % PRIME) else (num, den))
    (1, 1)

def addTerm (shares : List Point) (sums : Int) (shareJ : Point) (j : Nat) :
    Except PyException Int :=
  let (num, den) := lagrangeTerms shares j shareJ.1
  match powInverse den PRIME with
  | .error _ =>
    .error (.shareReconstructionError
      "shares contain colliding x-coordinates and cannot be combined")
  | .ok invDen =>
    let lagrange := num * invDen % PRIME
    .ok ((sums + shareJ.2 * lagrange) % PRIME)

def reconstructSecret (shares : List Point) : Except PyException Int :=
  shares.zipIdx.foldlM (fun sums (shareJ, j) => addTerm shares sums shareJ j) 0

namespace ShamirSecret

/-- The points of chunk `keyInd` in all accepted shares. -/
def encryptedInts (keysList : List (List Point)) (keyInd : Nat) : Except PyException (List Point) :=
  keysList.mapM fun keysLine =>
    match keysLine[keyInd]? with
    | some point => .ok point
    | none => .error .indexError

def decryptedInts (keysList : List (List Point)) (chunks : Nat) : Except PyException (List Int) :=
  (List.range chunks).mapM fun keyInd => do
    let thisPartsEncryptedInts ← encryptedInts keysList keyInd
    reconstructSecret thisPartsEncryptedInts

/-- What `decode` does with the integers it has interpolated. -/
def checkedResult (sha256 : Bytes → String) (self : ShamirSecret) (integers : List Int) :
    Except PyException String :=
  match integerListToString integers self.bytesPerInteger with
  | .error .unicodeDecodeError | .error .indexError | .error .overflowError =>
    .error (.shareReconstructionError
      "reconstructed data is not a valid secret - shares may be corrupted or tampered with")
  | .error exception => .error exception
  | .ok result =>
    if !self.secretHash.equals .null &&
        !(Json.str (sha256 (encodeUtf8 result))).equals self.secretHash then
      .error (.shareReconstructionError
        "reconstructed secret failed integrity check - shares may be corrupted or tampered with")
    else .ok result

def decode (sha256 : Bytes → String) (self : ShamirSecret) : Except PyException String :=
  if !self.readyToDecode then .ok ""
  else
    match self.decodingParticipantsKeys with
    | [] => .error .indexError
    | first :: _ => do
      let integers ← decryptedInts self.decodingParticipantsKeys first.length
      self.checkedResult sha256 integers

end ShamirSecret

end SecretWeb.Shamir
