import SecretWeb.Shamir.Object
import SecretWeb.Shamir.Chunks

/-! # Dealing shares

`create_secret` splits every integer of a chunked secret over its own random polynomial;
`iterate_participants` transposes the resulting matrix into one record a participant.
The random source is a tape: the outcomes of the `secrets.randbelow` calls in the order
they are made, chunk by chunk.  A result `none` means that the tape ended before the loop
that draws x-coordinates did. -/

namespace SecretWeb.Shamir

open SecretWeb.Data SecretWeb.Python

/-! ## One polynomial -/

/-- The outcomes drawn for one chunk: `randbelow(PRIME)` for each coefficient and
`randbelow(PRIME - 1)` for each attempt at an x-coordinate. -/
structure ChunkDraws where
  coefficients : List (Fin PRIME)
  xDraws : List (Fin (PRIME - 1))

def polynom (x : Int) (coefficients : List Int) : Int :=
  coefficients.reverse.zipIdx.foldl
    (fun point (coefficientValue, coefficientIndex) =>
      (point + x ^ coefficientIndex % PRIME * coefficientValue) % PRIME) 0

def coeff (treshold secret : Int) (drawn : List (Fin PRIME)) : Option (List Int) :=
  if drawn.length = (treshold - 1).toNat then
    some (drawn.map (fun value => (value.val : Int)) ++ [secret])
  else none

/-- The `while len(shares) < n_shares` loop. -/
def drawShares (coefficients : List Int) (nShares : Int) :
    List (Fin (PRIME - 1)) → (shares : List Point) → (xValues : List Int) → Option (List Point)
  | [], shares, _ => if (shares.length : Int) < nShares then none else some shares
  | draw :: rest, shares, xValues =>
    if (shares.length : Int) < nShares then
      let x : Int := draw.val + 1
      if x ∈ xValues then drawShares coefficients nShares rest shares xValues
      else
        drawShares coefficients nShares rest (shares ++ [(x, polynom x coefficients)])
          (xValues ++ [x])
    else some shares

def generateShares (nShares m secret : Int) (draws : ChunkDraws) : Option (List Point) := do
  let coefficients ← coeff m secret draws.coefficients
  drawShares coefficients nShares draws.xDraws [] []

/-- The loop over the chunks of `create_secret`, one row of the matrix for each. -/
def generateRows (nShares m : Int) : List Int → List ChunkDraws → Option (List (List Point))
  | [], _ => some []
  | _ :: _, [] => none
  | plaintextInteger :: integers, draws :: rest => do
    let row ← generateShares nShares m plaintextInteger draws
    let rows ← generateRows nShares m integers rest
    return row :: rows

/-! ## Dealing a secret -/

/-- A participant's record as `iterate_participants` yields it. -/
structure ParticipantData where
  keys : List Point
  creationDate : Json
  owner : Json
  name : Json
  uuid : Json
  treshold : Int
  shares : Int
  secretHash : Json

def pointJson (point : Point) : Json := .list [.int point.1, .int point.2]

/-- The record as the dictionary the program passes around and writes as JSON. -/
def ParticipantData.toJson (record : ParticipantData) : Json :=
  .dict [("keys", .list (record.keys.map pointJson)), ("creation_date", record.creationDate),
    ("owner", record.owner), ("name", record.name), ("uuid", record.uuid),
    ("treshold", .int record.treshold), ("shares", .int record.shares),
    ("secret_hash", record.secretHash)]

namespace ShamirSecret

section Hash

variable (sha256 : Bytes → String)

def createSecret (self : ShamirSecret) (secretRaw : String) (now : String)
    (draws : List ChunkDraws) : Except PyException (Option ShamirSecret) :=
  if (encodeUtf8 secretRaw).length > MAX_SECRET_BYTES then
    .error (.valueError "secret exceeds maximum size of 1000000 bytes")
  else
    let plainTextCodes := stringToIntegers secretRaw self.bytesPerInteger
    .ok ((generateRows self.shares self.treshold plainTextCodes draws).map fun rows =>
      { self with
        secretHash := .str (sha256 (encodeUtf8 secretRaw))
        creationDate := .str now
        secretMatrix := self.secretMatrix ++ rows
        readyToDecode := true })

end Hash

/-- The column `secretInd` of the matrix. -/
def singleParticipantData (secretMatrix : List (List Point)) (secretInd : Nat) :
    Except PyException (List Point) :=
  secretMatrix.mapM fun row =>
    match row[secretInd]? with
    | some point => .ok point
    | none => .error .indexError

def iterateParticipants (self : ShamirSecret) : Except PyException (List ParticipantData) :=
  match self.secretMatrix with
  | [] => .error .indexError
  | firstRow :: _ => do
    let participantData ← (List.range firstRow.length).mapM
      (singleParticipantData self.secretMatrix)
    return participantData.map fun keys =>
      { keys := keys
        creationDate := self.creationDate
        owner := self.owner
        name := self.name
        uuid := self.uuid
        treshold := self.treshold
        shares := self.shares
        secretHash := self.secretHash }

end ShamirSecret

end SecretWeb.Shamir
