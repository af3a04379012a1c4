import TokenPriceAgg.Providers.HttpHelpers
import TokenPriceAgg.TokenMetadata.LogoStore

/-!
# The logo acquirer

`TokenLogoAcquirer.acquire` asks the candidates of an identity one after the other until one of them delivers a valid
image.  The image library, the HTTP client and SHA-256 are parameters; what a candidate answers is part of the input.
-/

namespace TokenPriceAgg

open PyLib

/-! ### Images -/

def maxImageSide : Int := 1024

def maxImagePixels : Int := 1048576

/-- What the image library raises; the first five are caught. -/
inductive ImageExn
  | decompressionBombError
  | unidentifiedImageError
  | osError
  | syntaxError
  | valueError
  | other (name : String)

/-- What `Image.open` tells of an image. -/
structure OpenedImage where
  format : Option String
  width : Int
  height : Int
  frameCount : Int

/-- What the code uses of the image library. -/
structure ImageLibrary where
  openImage : Bytes → Except ImageExn OpenedImage
  verify : Bytes → Except ImageExn Unit
  /-- the frames that the second opening counts -/
  reopen : Bytes → Except ImageExn Int
  load : Bytes → Except ImageExn Unit

/-- `hashlib.sha256(data).hexdigest()`. -/
abbrev Sha256 := Bytes → {digest : String // sqlLength digest = 64}

structure ValidatedLogo where
  imageBytes : Bytes
  contentHash : String
  mimeType : String
deriving DecidableEq

/-- What `validate_logo_bytes` raises. -/
inductive LogoExn
  | validationError (code : String)
  | other (name : String)
deriving DecidableEq

def caughtAsCorrupt {α : Type} (x : Except ImageExn α) : Except LogoExn α :=
  x.mapError fun exc =>
    match exc with
    | .other name => .other name
    | _ => .validationError "corrupt_image"

/-- `raise LogoValidationError(code)`, if the condition holds. -/
def rejectIf (condition : Bool) (code : String) : Except LogoExn Unit :=
  if condition then .error (.validationError code) else .ok ()

/-- `_ALLOWED_FORMATS.get(mime_type)`. -/
def allowedFormat (mimeType : String) : Option String :=
  [("image/png", "PNG"), ("image/jpeg", "JPEG"), ("image/webp", "WEBP")].lookup mimeType

def signatureMime (data : Bytes) : Except LogoExn String :=
  if [0x89, 0x50, 0x4e, 0x47, 0x0d, 0x0a, 0x1a, 0x0a].isPrefixOf data then .ok "image/png"
  else if [0xff, 0xd8, 0xff].isPrefixOf data then .ok "image/jpeg"
  else if 12 ≤ data.length ∧ [0x52, 0x49, 0x46, 0x46].isPrefixOf data ∧
      (data.drop 8).take 4 = [0x57, 0x45, 0x42, 0x50] then .ok "image/webp"
  else .error (.validationError "signature_mismatch")

/-- The decoding of `validate_logo_bytes`. -/
def decodeLogo (library : ImageLibrary) (expectedFormat : String) (data : Bytes) : Except LogoExn Unit := do
  let image ← caughtAsCorrupt (library.openImage data)
  rejectIf (image.format ≠ some expectedFormat) "decoder_format_mismatch"
  rejectIf (image.frameCount ≠ 1) "multiple_frames"
  rejectIf (image.width ≤ 0 ∨ image.height ≤ 0) "invalid_dimensions"
  rejectIf (maxImageSide < image.width ∨ maxImageSide < image.height) "dimensions_too_large"
  rejectIf (maxImagePixels < image.width * image.height) "pixel_count_too_large"
  caughtAsCorrupt (library.verify data)
  let frameCount ← caughtAsCorrupt (library.reopen data)
  rejectIf (frameCount ≠ 1) "multiple_frames"
  caughtAsCorrupt (library.load data)

def validateLogoBytes (library : ImageLibrary) (sha256 : Sha256) (data : Bytes) (mimeType : String) :
    Except LogoExn ValidatedLogo := do
  rejectIf data.isEmpty "empty_body"
  rejectIf (maxImageBytes < data.length) "body_too_large"
  match allowedFormat mimeType with
  | none => .error (.validationError "unsupported_media")
  | some expectedFormat =>
    let signature ← signatureMime data
    rejectIf (signature ≠ mimeType) "signature_mismatch"
    decodeLogo library expectedFormat data
    pure { imageBytes := data, contentHash := (sha256 data).val, mimeType }

/-! ### Candidates and their answers -/

structure LogoCandidate where
  source : String
  url : String
deriving DecidableEq

/-- What the HTTP client raises; `httpError` stands for every other `httpx.HTTPError`. -/
inductive HttpxExn
  | timeoutException
  | remoteProtocolError
  | networkError
  | httpError
  /-- an exception that is no `httpx.HTTPError`, such as `InvalidURL` -/
  | other (name : String)
deriving DecidableEq

/-- A final response; its body arrives in chunks and may break off. -/
structure LogoResponse where
  statusCode : Nat
  header : String → Option String
  chunks : List Bytes
  broken : Option HttpxExn := none
  final : 200 ≤ statusCode ∧ statusCode ≤ 999

/-- A candidate and what comes of asking it. -/
structure Attempt where
  candidate : LogoCandidate
  answer : Except HttpxExn LogoResponse
  dates : HttpDates

inductive CandidateOutcome
  | success
  | transient
  | conclusive
deriving DecidableEq

/-- `_CandidateResult`. -/
structure CandidateResult where
  outcome : CandidateOutcome
  asset : Option ValidatedLogo
  source : String
  httpStatus : Option Int
  errorCode : String
  retryAfterMs : Option Int := none

inductive AcquisitionOutcome
  | success
  | transient
  | unavailable
deriving DecidableEq

structure AcquisitionResult where
  outcome : AcquisitionOutcome
  asset : Option ValidatedLogo
  source : Option String
  httpStatus : Option Int
  errorCode : String
  retryAfterMs : Option Int := none

/-- `text[:64]`. -/
def prefix64 (text : String) : String := String.ofList (text.toList.take 64)

def isTransientStatus (status : Nat) : Bool :=
  status = 408 || status = 425 || status = 429 || (500 ≤ status && status ≤ 599)

/-- `_retry_after_ms`; the conversion of the digits is in no `try` block. -/
def retryAfterMs (dates : HttpDates) (value : Option String) : Except Exn (Option Int) :=
  match value with
  | none => .ok none
  | some value =>
    let stripped := strip value.toList
    if isDigitText stripped then
      match intOfText stripped with
      | some seconds => .ok (some (seconds * 1000))
      | none => .error (.valueError "invalid literal for int() with base 10")
    else
      match dates.parsedateToDatetime stripped with
      | none => .ok none
      | some parsed =>
        let parsed := if parsed.utcOffset = none then parsed.replaceUtc else parsed
        .ok (some (max (totalMillis (parsed.sub dates.utcNow)) 0))

def contentLength (response : LogoResponse) : Option Int :=
  ((response.header "content-length").bind fun value => intOfText value.toList).map fun parsed => max parsed 0

/-- `value.split(";", 1)[0].strip().lower()`. -/
def responseMime (response : LogoResponse) : String :=
  let value := (response.header "content-type").getD ""
  (String.ofList (strip (value.toList.takeWhile (· ≠ ';')))).toLower

/-- The loop over the chunks; `none` is a body that is too large. -/
def readChunks (broken : Option HttpxExn) (body : Bytes) : List Bytes → Except HttpxExn (Option Bytes)
  | [] =>
    match broken with
    | none => .ok (some body)
    | some exc => .error exc
  | chunk :: chunks =>
    if maxImageBytes < (body ++ chunk).length then .ok none else readChunks broken (body ++ chunk) chunks

def LogoResponse.body (response : LogoResponse) : Except HttpxExn (Option Bytes) :=
  readChunks response.broken [] response.chunks

def conclusive (candidate : LogoCandidate) (errorCode : String) (httpStatus : Option Int) : CandidateResult where
  outcome := .conclusive
  asset := none
  source := candidate.source
  httpStatus := httpStatus
  errorCode := prefix64 errorCode

/-- The identifiers of `LOGO_SOURCES`. -/
def logoSourceIds : List String := ["yearn_tokenassets", "trustwallet", "coingecko", "smoldapp"]

/-- What the acquirer is built from: the rules of the sources for image URLs, the reviewed overrides and the two
libraries. -/
structure Acquirer where
  allowsImageUrl : String → Int → String → String → Bool
  overrides : Dict TokenKey Bytes
  library : ImageLibrary
  sha256 : Sha256

section Acquire

variable (eth : EthUtils) (acquirer : Acquirer) (chainId : Int) (address : String)

/-- The `except` clauses of `_acquire_candidate`. -/
def handleHttpx (candidate : LogoCandidate) (exc : HttpxExn) : Except Exn CandidateResult :=
  let transient (errorCode : String) : Except Exn CandidateResult :=
    .ok { outcome := .transient, asset := none, source := candidate.source, httpStatus := none, errorCode }
  match exc with
  | .timeoutException => transient "network_timeout"
  | .remoteProtocolError => transient "remote_protocol_error"
  | .networkError => transient "network_error"
  | .httpError => transient "http_client_error"
  | .other name => .error (.other name)

/-- A delivered body. -/
def acquireBody (candidate : LogoCandidate) (response : LogoResponse) (body : Bytes) : Except Exn CandidateResult :=
  match validateLogoBytes acquirer.library acquirer.sha256 body (responseMime response) with
  | .ok asset =>
    .ok { outcome := .success, asset := some asset, source := candidate.source
          httpStatus := some response.statusCode, errorCode := "success" }
  | .error (.validationError code) => .ok (conclusive candidate code (some response.statusCode))
  | .error (.other name) => .error (.other name)

/-- An answer of the server. -/
def acquireResponse (dates : HttpDates) (candidate : LogoCandidate) (response : LogoResponse) :
    Except Exn CandidateResult :=
  let status := response.statusCode
  if status ≠ 200 then
    (if status = 429 ∨ status = 503 then retryAfterMs dates (response.header "retry-after") else .ok none).map
      fun retryAfterMs =>
        { outcome := if isTransientStatus status then .transient else .conclusive, asset := none
          source := candidate.source, httpStatus := some status, errorCode := "http_" ++ toString status, retryAfterMs }
  else if (contentLength response).any ((maxImageBytes : Int) < ·) then
    .ok (conclusive candidate "body_too_large" (some status))
  else
    match response.body with
    | .error exc => handleHttpx candidate exc
    | .ok none => .ok (conclusive candidate "body_too_large" (some status))
    | .ok (some body) => acquireBody acquirer candidate response body

def acquireCandidate (attempt : Attempt) : Except Exn CandidateResult :=
  let candidate := attempt.candidate
  if candidate.source ∉ logoSourceIds then .ok (conclusive candidate "source_not_registered" none)
  else if !acquirer.allowsImageUrl candidate.source chainId address candidate.url then
    .ok (conclusive candidate "source_policy_violation" none)
  else
    match attempt.answer with
    | .error exc => handleHttpx candidate exc
    | .ok response => acquireResponse acquirer attempt.dates candidate response

/-- The candidates are asked up to the first that succeeds. -/
def acquireCandidates : List Attempt → Except Exn (List CandidateResult)
  | [] => .ok []
  | attempt :: attempts => do
    let result ← acquireCandidate acquirer chainId address attempt
    if result.outcome = .success then pure [result]
    else
      let results ← acquireCandidates attempts
      pure (result :: results)

def validateOverride (imageBytes : Bytes) : Except LogoExn ValidatedLogo := do
  let mimeType ← signatureMime imageBytes
  validateLogoBytes acquirer.library acquirer.sha256 imageBytes mimeType

/-- The result of an override. -/
def acquireOverride (imageBytes : Bytes) : Except Exn CandidateResult :=
  match validateOverride acquirer imageBytes with
  | .ok asset =>
    .ok { outcome := .success, asset := some asset, source := "override", httpStatus := none, errorCode := "success" }
  | .error (.validationError code) =>
    .ok { outcome := .conclusive, asset := none, source := "override", httpStatus := none, errorCode := code }
  | .error (.other name) => .error (.other name)

/-- The result of all attempts. -/
def summarize (attempts : List CandidateResult) : AcquisitionResult :=
  match attempts.find? (·.outcome = .success) with
  | some attempt =>
    { outcome := .success, asset := attempt.asset, source := some attempt.source, httpStatus := attempt.httpStatus
      errorCode := "success" }
  | none =>
    match attempts.find? (·.outcome = .transient) with
    | some transient =>
      let retryAfter := ((attempts.filter (·.outcome = .transient)).map fun a => a.retryAfterMs.getD 0).foldl max 0
      { outcome := .transient, asset := none, source := none, httpStatus := transient.httpStatus
        errorCode := transient.errorCode, retryAfterMs := if retryAfter = 0 then none else some retryAfter }
    | none =>
      { outcome := .unavailable, asset := none, source := none
        httpStatus := attempts.getLast?.bind (·.httpStatus)
        errorCode := (attempts.getLast?.map (·.errorCode)).getD "no_candidate" }

def getLogoOverride : Except Exn (Option Bytes) :=
  (normalizeAddress eth address).map fun normalized => acquirer.overrides.get? (chainId, normalized)

def acquire (attempts : List Attempt) : Except Exn AcquisitionResult := do
  match ← getLogoOverride eth acquirer chainId address with
  | none => (acquireCandidates acquirer chainId address attempts).map summarize
  | some imageBytes =>
    let first ← acquireOverride acquirer imageBytes
    if first.outcome = .success then pure (summarize [first])
    else (acquireCandidates acquirer chainId address attempts).map fun results => summarize (first :: results)

end Acquire

end TokenPriceAgg
