import TokenPriceAgg.TokenMetadata.LogoAcquirer

/-!
# What the answers of the candidates lead to

The answers are classified by the input alone: an attempt raises, succeeds, is transient or is refused.
`acquireCandidate_spec` says what one attempt gives, `acquireCandidates_spec` what the loop over the candidates gives,
and `acquire_spec` what the acquirer returns.
-/

namespace TokenPriceAgg

open PyLib

/-! ### Answers -/

def HttpxExn.Caught : HttpxExn → Prop
  | .other _ => False
  | _ => True

/-- The header's text consists of digits that `int` does not read. -/
def UnreadableRetryAfter (response : LogoResponse) : Prop :=
  (response.statusCode = 429 ∨ response.statusCode = 503) ∧
    ∃ value, response.header "retry-after" = some value ∧ isDigitText (strip value.toList) ∧
      intOfText (strip value.toList) = none

/-- The body of the response is read. -/
def LogoResponse.Read (response : LogoResponse) : Prop :=
  response.statusCode = 200 ∧ ¬ (contentLength response).any ((maxImageBytes : Int) < ·)

section Answers

variable (acquirer : Acquirer) (chainId : Int) (address : String)

def ResponseRaises (response : LogoResponse) : Prop :=
  UnreadableRetryAfter response ∨ response.Read ∧
    match response.body with
    | .error exc => ¬ exc.Caught
    | .ok none => False
    | .ok (some body) =>
      ∃ name, validateLogoBytes acquirer.library acquirer.sha256 body (responseMime response) = .error (.other name)

def ResponseSucceeds (response : LogoResponse) : Prop :=
  response.Read ∧ ∃ body asset, response.body = .ok (some body) ∧
    validateLogoBytes acquirer.library acquirer.sha256 body (responseMime response) = .ok asset

def ResponseTransient (response : LogoResponse) : Prop :=
  isTransientStatus response.statusCode ∨ response.Read ∧ ∃ exc, response.body = .error exc ∧ exc.Caught

/-- The candidate is asked. -/
def Permitted (attempt : Attempt) : Prop :=
  attempt.candidate.source ∈ logoSourceIds ∧
    acquirer.allowsImageUrl attempt.candidate.source chainId address attempt.candidate.url

def Raises (attempt : Attempt) : Prop :=
  Permitted acquirer chainId address attempt ∧
    match attempt.answer with
    | .error exc => ¬ exc.Caught
    | .ok response => ResponseRaises acquirer response

def Succeeds (attempt : Attempt) : Prop :=
  Permitted acquirer chainId address attempt ∧
    match attempt.answer with
    | .error _ => False
    | .ok response => ResponseSucceeds acquirer response

def Transient (attempt : Attempt) : Prop :=
  Permitted acquirer chainId address attempt ∧
    match attempt.answer with
    | .error exc => exc.Caught
    | .ok response => ResponseTransient response

/-- The server answers with a status beyond the five classes of HTTP. -/
def Refused (attempt : Attempt) : Prop :=
  Permitted acquirer chainId address attempt ∧
    match attempt.answer with
    | .error _ => False
    | .ok response => 599 < response.statusCode

/-- An attempt raises before one succeeds. -/
def RaisesWhileAsked : List Attempt → Prop
  | [] => False
  | attempt :: attempts =>
    Raises acquirer chainId address attempt ∨
      ¬ Succeeds acquirer chainId address attempt ∧ RaisesWhileAsked attempts

end Answers

/-! ### Texts and images that the table takes -/

theorem sqlLength_prefix64_le (text : String) : sqlLength (prefix64 text) ≤ 64 := by
  unfold sqlLength prefix64
  rw [String.toList_ofList]
  have hwhile : ((text.toList.take 64).takeWhile (· ≠ '\x00')).length ≤ (text.toList.take 64).length :=
    (List.takeWhile_sublist _).length_le
  have htake : (text.toList.take 64).length ≤ 64 := List.length_take_le 64 text.toList
  omega

/-- A text with a first character that is not NUL has a length for the database. -/
private theorem sqlLength_pos {text : String} : 1 ≤ sqlLength text ↔ ∃ c cs, text.toList = c :: cs ∧ c ≠ '\x00' := by
  unfold sqlLength
  cases htext : text.toList with
  | nil => simp
  | cons c cs =>
    by_cases hc : c = '\x00'
    · subst hc
      simp
    · constructor
      · intro _
        exact ⟨c, cs, rfl, hc⟩
      · intro _
        rw [List.takeWhile_cons_of_pos (by simpa using hc)]
        simp

theorem sqlLength_prefix64_pos {text : String} (h : 1 ≤ sqlLength text) : 1 ≤ sqlLength (prefix64 text) := by
  obtain ⟨c, cs, htext, hc⟩ := sqlLength_pos.1 h
  refine sqlLength_pos.2 ⟨c, cs.take 63, ?_, hc⟩
  unfold prefix64
  rw [String.toList_ofList, htext]
  rfl

/-- Every validation error has a code. -/
def CodesNamed {α : Type} (x : Except LogoExn α) : Prop :=
  ∀ code, x = .error (.validationError code) → 1 ≤ sqlLength code

theorem CodesNamed.bind {α β : Type} {x : Except LogoExn α} {f : α → Except LogoExn β} (hx : CodesNamed x)
    (hf : ∀ a, CodesNamed (f a)) : CodesNamed (x >>= f) := by
  intro code h
  cases x with
  | ok a => exact hf a code h
  | error exc =>
    cases h
    exact hx code rfl

private theorem CodesNamed.ok {α : Type} (a : α) : CodesNamed (.ok a) := by
  intro code h
  cases h

private theorem rejectIf_named (condition : Bool) {code : String} (hcode : 1 ≤ sqlLength code) :
    CodesNamed (rejectIf condition code) := by
  intro code' h
  unfold rejectIf at h
  split at h
  · cases h
    exact hcode
  · cases h

private theorem caughtAsCorrupt_named {α : Type} (x : Except ImageExn α) : CodesNamed (caughtAsCorrupt x) := by
  intro code h
  cases x with
  | ok a => cases h
  | error exc =>
    cases exc with
    | other name => cases h
    | _ =>
      cases h
      decide +kernel

private theorem signatureMime_named (data : Bytes) : CodesNamed (signatureMime data) := by
  intro code h
  unfold signatureMime at h
  split at h
  · cases h
  · split at h
    · cases h
    · split at h
      · cases h
      · cases h
        decide +kernel

private theorem decodeLogo_named (library : ImageLibrary) (expectedFormat : String) (data : Bytes) :
    CodesNamed (decodeLogo library expectedFormat data) := by
  refine (caughtAsCorrupt_named _).bind fun image => ?_
  refine (rejectIf_named _ (by decide +kernel)).bind fun _ => ?_
  refine (rejectIf_named _ (by decide +kernel)).bind fun _ => ?_
  refine (rejectIf_named _ (by decide +kernel)).bind fun _ => ?_
  refine (rejectIf_named _ (by decide +kernel)).bind fun _ => ?_
  refine (rejectIf_named _ (by decide +kernel)).bind fun _ => ?_
  refine (caughtAsCorrupt_named _).bind fun _ => ?_
  refine (caughtAsCorrupt_named _).bind fun frameCount => ?_
  refine (rejectIf_named _ (by decide +kernel)).bind fun _ => ?_
  exact caughtAsCorrupt_named _

private theorem validateLogoBytes_named (library : ImageLibrary) (sha256 : Sha256) (data : Bytes) (mimeType : String) :
    CodesNamed (validateLogoBytes library sha256 data mimeType) := by
  refine (rejectIf_named _ (by decide +kernel)).bind fun _ => ?_
  refine (rejectIf_named _ (by decide +kernel)).bind fun _ => ?_
  cases allowedFormat mimeType with
  | none =>
    intro code h
    cases h
    decide +kernel
  | some expectedFormat =>
    refine (signatureMime_named data).bind fun signature => ?_
    refine (rejectIf_named _ (by decide +kernel)).bind fun _ => ?_
    exact (decodeLogo_named library expectedFormat data).bind fun _ => .ok _

/-- The asset satisfies the constraints of its columns. -/
structure ValidatedLogo.Storable (asset : ValidatedLogo) : Prop where
  imageBytes : 1 ≤ asset.imageBytes.length ∧ asset.imageBytes.length ≤ 262144
  contentHash : sqlLength asset.contentHash = 64
  mimeType : asset.mimeType ∈ ["image/png", "image/jpeg", "image/webp"]

private theorem rejectIf_ok {condition : Bool} {code : String} {u : Unit} (h : rejectIf condition code = .ok u) :
    condition = false := by
  unfold rejectIf at h
  cases condition with
  | true => cases h
  | false => rfl

private theorem allowedFormat_mem
    {mimeType expectedFormat : String} (h : allowedFormat mimeType = some expectedFormat) :
    mimeType ∈ ["image/png", "image/jpeg", "image/webp"] := by
  unfold allowedFormat at h
  by_contra hmem
  simp only [List.mem_cons, List.not_mem_nil, or_false, not_or] at hmem
  obtain ⟨hpng, hjpeg, hwebp⟩ := hmem
  have hlookup :
      List.lookup mimeType [("image/png", "PNG"), ("image/jpeg", "JPEG"), ("image/webp", "WEBP")] = none := by
    simp [List.lookup_cons, beq_eq_false_iff_ne.2 hpng, beq_eq_false_iff_ne.2 hjpeg, beq_eq_false_iff_ne.2 hwebp]
  rw [hlookup] at h
  cases h

private theorem validateLogoBytes_storable {library : ImageLibrary} {sha256 : Sha256} {data : Bytes} {mimeType : String}
    {asset : ValidatedLogo} (h : validateLogoBytes library sha256 data mimeType = .ok asset) : asset.Storable := by
  obtain ⟨_, hempty, h⟩ := Eff.except_bind_eq_ok.1 h
  obtain ⟨_, hlarge, h⟩ := Eff.except_bind_eq_ok.1 h
  have hempty : data ≠ [] := by simpa using rejectIf_ok hempty
  have hlarge : data.length ≤ maxImageBytes := by simpa using rejectIf_ok hlarge
  cases hformat : allowedFormat mimeType with
  | none =>
    rw [hformat] at h
    cases h
  | some expectedFormat =>
    rw [hformat] at h
    obtain ⟨signature, -, h⟩ := Eff.except_bind_eq_ok.1 h
    obtain ⟨-, -, h⟩ := Eff.except_bind_eq_ok.1 h
    obtain ⟨-, -, h⟩ := Eff.except_bind_eq_ok.1 h
    cases h
    have hpos : 0 < data.length := List.length_pos_iff.2 hempty
    exact ⟨⟨hpos, hlarge⟩, (sha256 data).property, allowedFormat_mem hformat⟩

/-! ### One attempt -/

/-- What every result of a candidate satisfies. -/
structure CandidateResult.Sound (result : CandidateResult) : Prop where
  errorCode : 1 ≤ sqlLength result.errorCode
  httpStatus : ∀ status ∈ result.httpStatus, 100 ≤ status
  asset : result.outcome = .success → ∃ asset, result.asset = some asset ∧ asset.Storable
  source : result.outcome = .success → result.source ∈ "override" :: logoSourceIds
  bounded : result.outcome ≠ .conclusive → ∀ status ∈ result.httpStatus, status ≤ 599

/-- What comes of an attempt with this classification. -/
def Classified (raises succeeds transient refused : Prop) : Except Exn CandidateResult → Prop
  | .error _ => raises
  | .ok result =>
    ¬ raises ∧ result.Sound ∧ (result.outcome = .success ↔ succeeds) ∧ (result.outcome = .transient ↔ transient) ∧
      (result.outcome = .conclusive → ((∃ status ∈ result.httpStatus, 599 < status) ↔ refused))

/-- A conclusive result with a code and a status of at most 599. -/
private theorem classified_conclusive
    {raises succeeds transient refused : Prop} (candidate : LogoCandidate) {code : String}
    {httpStatus : Option Int} (hcode : 1 ≤ sqlLength code) (hstatus : ∀ s ∈ httpStatus, 100 ≤ s ∧ s ≤ 599)
    (hraises : ¬ raises) (hsucceeds : ¬ succeeds) (htransient : ¬ transient) (hrefused : ¬ refused) :
    Classified raises succeeds transient refused (.ok (conclusive candidate code httpStatus)) := by
  refine ⟨hraises, ⟨sqlLength_prefix64_pos hcode, fun s hs => (hstatus s hs).1, ?_, ?_, ?_⟩, ?_, ?_, ?_⟩
  · intro h
    cases h
  · intro h
    cases h
  · intro h
    exact absurd rfl h
  · exact iff_of_false (fun h => by cases h) hsucceeds
  · exact iff_of_false (fun h => by cases h) htransient
  · intro _
    refine iff_of_false ?_ hrefused
    rintro ⟨status, hs, hlarge⟩
    have := (hstatus status hs).2
    omega

private theorem handleHttpx_classified
    (candidate : LogoCandidate) (exc : HttpxExn) {raises succeeds transient refused : Prop}
    (hraises : raises ↔ ¬ exc.Caught) (hsucceeds : ¬ succeeds) (htransient : transient ↔ exc.Caught) :
    Classified raises succeeds transient refused (handleHttpx candidate exc) := by
  have caught {code : String} (hcaught : exc.Caught) (hcode : 1 ≤ sqlLength code) :
      Classified raises succeeds transient refused (.ok
        { outcome := .transient, asset := none, source := candidate.source, httpStatus := none
          errorCode := code }) := by
    refine ⟨fun h => hraises.1 h hcaught, ⟨hcode, ?_, ?_, ?_, ?_⟩, ?_, iff_of_true rfl (htransient.2 hcaught), ?_⟩
    · intro status h
      cases h
    · intro h
      cases h
    · intro h
      cases h
    · intro _ status h
      cases h
    · exact iff_of_false (fun h => by cases h) hsucceeds
    · intro h
      cases h
  cases exc with
  | timeoutException => exact caught trivial (by decide +kernel)
  | remoteProtocolError => exact caught trivial (by decide +kernel)
  | networkError => exact caught trivial (by decide +kernel)
  | httpError => exact caught trivial (by decide +kernel)
  | other name => exact hraises.2 id

/-- The header makes `_retry_after_ms` raise exactly if it consists of digits that `int` does not read. -/
private theorem retryAfterMs_raises (dates : HttpDates) (value : Option String) :
    (∃ exc, retryAfterMs dates value = .error exc) ↔
      ∃ text, value = some text ∧ isDigitText (strip text.toList) ∧ intOfText (strip text.toList) = none := by
  cases value with
  | none =>
    refine iff_of_false ?_ ?_
    · rintro ⟨exc, h⟩
      cases h
    · rintro ⟨text, h, -⟩
      cases h
  | some text =>
    by_cases hdigit : isDigitText (strip text.toList)
    · cases hint : intOfText (strip text.toList) with
      | none =>
        refine iff_of_true ⟨.valueError "invalid literal for int() with base 10", ?_⟩ ⟨text, rfl, hdigit, hint⟩
        simp only [retryAfterMs, hdigit, hint, if_true]
      | some seconds =>
        refine iff_of_false ?_ ?_
        · rintro ⟨exc, h⟩
          simp only [retryAfterMs, hdigit, hint, if_true] at h
          cases h
        · rintro ⟨text', h, -, hnone⟩
          cases h
          rw [hint] at hnone
          cases hnone
    · refine iff_of_false ?_ ?_
      · rintro ⟨exc, h⟩
        simp only [retryAfterMs, hdigit] at h
        cases hparsed : dates.parsedateToDatetime (strip text.toList) with
        | none =>
          rw [hparsed] at h
          cases h
        | some parsed =>
          rw [hparsed] at h
          cases h
      · rintro ⟨text', h, hdigit', -⟩
        cases h
        exact hdigit hdigit'

private theorem isTransientStatus_le {status : Nat} (h : isTransientStatus status) : status ≤ 599 := by
  unfold isTransientStatus at h
  simp only [Bool.or_eq_true, Bool.and_eq_true, decide_eq_true_eq] at h
  omega

private theorem httpStatus_code_pos (status : Nat) : 1 ≤ sqlLength ("http_" ++ toString status) := by
  refine sqlLength_pos.2 ⟨'h', "ttp_".toList ++ (toString status).toList, ?_, by decide⟩
  rw [String.toList_append]
  rfl

section Attempt

variable (acquirer : Acquirer)

/-- An answer whose status is not 200. -/
private theorem acquireStatus_classified (dates : HttpDates) (candidate : LogoCandidate) {response : LogoResponse}
    (hstatus : response.statusCode ≠ 200) :
    Classified (ResponseRaises acquirer response) (ResponseSucceeds acquirer response) (ResponseTransient response)
      (599 < response.statusCode) (acquireResponse acquirer dates candidate response) := by
  have hread : ¬ response.Read := fun h => hstatus h.1
  unfold acquireResponse
  dsimp only
  rw [if_pos hstatus]
  generalize hretry : (if response.statusCode = 429 ∨ response.statusCode = 503 then
    retryAfterMs dates (response.header "retry-after") else .ok none) = retryAfter
  cases retryAfter with
  | error exc =>
    refine .inl ?_
    split at hretry
    · rename_i hretried
      exact ⟨hretried, (retryAfterMs_raises dates _).1 ⟨exc, hretry⟩⟩
    · cases hretry
  | ok delay =>
    have hraises : ¬ ResponseRaises acquirer response := by
      rintro (⟨hretried, hunreadable⟩ | ⟨h, -⟩)
      · rw [if_pos hretried] at hretry
        obtain ⟨exc, hexc⟩ := (retryAfterMs_raises dates _).2 hunreadable
        rw [hexc] at hretry
        cases hretry
      · exact hread h
    have hsucceeds : ¬ ResponseSucceeds acquirer response := fun h => hread h.1
    have hfinal := response.final
    by_cases htransient : isTransientStatus response.statusCode
    · have hle := isTransientStatus_le htransient
      simp only [Except.map, htransient, if_true]
      refine ⟨hraises, ⟨httpStatus_code_pos _, ?_, nofun, nofun, ?_⟩, iff_of_false nofun hsucceeds,
        iff_of_true rfl (.inl htransient), nofun⟩
      · intro status h
        obtain rfl : (response.statusCode : Int) = status := Option.some.inj h
        omega
      · intro _ status h
        obtain rfl : (response.statusCode : Int) = status := Option.some.inj h
        omega
    · have hlasting : ¬ ResponseTransient response := by
        rintro (h | ⟨h, -⟩)
        · exact htransient h
        · exact hread h
      simp only [Except.map, htransient]
      refine ⟨hraises, ⟨httpStatus_code_pos _, ?_, nofun, nofun, fun h => absurd rfl h⟩, iff_of_false nofun hsucceeds,
        iff_of_false nofun hlasting, fun _ => ?_⟩
      · intro status h
        obtain rfl : (response.statusCode : Int) = status := Option.some.inj h
        omega
      · constructor
        · rintro ⟨status, h, hlarge⟩
          obtain rfl : (response.statusCode : Int) = status := Option.some.inj h
          omega
        · intro h
          exact ⟨response.statusCode, rfl, by omega⟩

/-- A body that is delivered. -/
private theorem acquireBody_classified {candidate : LogoCandidate} (hsource : candidate.source ∈ logoSourceIds)
    {response : LogoResponse} (hread : response.Read) {body : Bytes} (hbody : response.body = .ok (some body)) :
    Classified (ResponseRaises acquirer response) (ResponseSucceeds acquirer response) (ResponseTransient response)
      (599 < response.statusCode) (acquireBody acquirer candidate response body) := by
  have hstatus : response.statusCode = 200 := hread.1
  have hlasting : ¬ ResponseTransient response := by
    rintro (h | ⟨-, exc, h, -⟩)
    · rw [hstatus] at h
      revert h
      decide
    · rw [hbody] at h
      cases h
  have hreadable : ¬ UnreadableRetryAfter response := by
    rintro ⟨h, -⟩
    omega
  have hraises : ResponseRaises acquirer response ↔
      ∃ name, validateLogoBytes acquirer.library acquirer.sha256 body (responseMime response) =
        .error (.other name) := by
    simp only [ResponseRaises, hbody, hreadable, hread, false_or, true_and]
  have hsucceeds : ResponseSucceeds acquirer response ↔
      ∃ asset, validateLogoBytes acquirer.library acquirer.sha256 body (responseMime response) = .ok asset := by
    constructor
    · rintro ⟨-, body', asset, hbody', h⟩
      rw [hbody] at hbody'
      cases hbody'
      exact ⟨asset, h⟩
    · rintro ⟨asset, h⟩
      exact ⟨hread, body, asset, hbody, h⟩
  unfold acquireBody
  cases hvalidate : validateLogoBytes acquirer.library acquirer.sha256 body (responseMime response) with
  | ok asset =>
    have hcode : 1 ≤ sqlLength "success" := by decide +kernel
    refine ⟨?_, ⟨hcode, ?_, fun _ => ⟨asset, rfl, validateLogoBytes_storable hvalidate⟩, fun _ => ?_, ?_⟩,
      iff_of_true rfl (hsucceeds.2 ⟨asset, hvalidate⟩), iff_of_false nofun hlasting, nofun⟩
    · intro h
      obtain ⟨name, h⟩ := hraises.1 h
      rw [hvalidate] at h
      cases h
    · intro status h
      obtain rfl : (response.statusCode : Int) = status := Option.some.inj h
      omega
    · exact List.mem_cons_of_mem _ hsource
    · intro _ status h
      obtain rfl : (response.statusCode : Int) = status := Option.some.inj h
      omega
  | error exc =>
    cases exc with
    | validationError code =>
      refine classified_conclusive candidate (validateLogoBytes_named _ _ _ _ code hvalidate) ?_ ?_ ?_ hlasting ?_
      · intro status h
        obtain rfl : (response.statusCode : Int) = status := Option.some.inj h
        omega
      · intro h
        obtain ⟨name, h⟩ := hraises.1 h
        rw [hvalidate] at h
        cases h
      · intro h
        obtain ⟨asset, h⟩ := hsucceeds.1 h
        rw [hvalidate] at h
        cases h
      · omega
    | other name => exact hraises.2 ⟨name, hvalidate⟩

/-- An answer of the server. -/
private theorem acquireResponse_classified (dates : HttpDates) {candidate : LogoCandidate}
    (hsource : candidate.source ∈ logoSourceIds) (response : LogoResponse) :
    Classified (ResponseRaises acquirer response) (ResponseSucceeds acquirer response) (ResponseTransient response)
      (599 < response.statusCode) (acquireResponse acquirer dates candidate response) := by
  by_cases hstatus : response.statusCode = 200
  · have hreadable : ¬ UnreadableRetryAfter response := by
      rintro ⟨h, -⟩
      omega
    have hfinal : ¬ isTransientStatus response.statusCode := by
      rw [hstatus]
      decide
    -- a body that is too large, by its header or by its chunks
    have large (hraises : ¬ ResponseRaises acquirer response) (hsucceeds : ¬ ResponseSucceeds acquirer response)
        (hlasting : ¬ ResponseTransient response) :
        Classified (ResponseRaises acquirer response) (ResponseSucceeds acquirer response) (ResponseTransient response)
          (599 < response.statusCode) (.ok (conclusive candidate "body_too_large" (some response.statusCode))) := by
      refine classified_conclusive candidate (by decide +kernel) ?_ hraises hsucceeds hlasting (by omega)
      intro status h
      obtain rfl : (response.statusCode : Int) = status := Option.some.inj h
      omega
    unfold acquireResponse
    dsimp only
    rw [if_neg (not_not.2 hstatus)]
    by_cases hlength : (contentLength response).any ((maxImageBytes : Int) < ·)
    · have hread : ¬ response.Read := fun h => h.2 hlength
      rw [if_pos hlength]
      refine large ?_ (fun h => hread h.1) ?_
      · rintro (h | ⟨h, -⟩)
        · exact hreadable h
        · exact hread h
      · rintro (h | ⟨h, -⟩)
        · exact hfinal h
        · exact hread h
    · have hread : response.Read := ⟨hstatus, hlength⟩
      rw [if_neg hlength]
      cases hbody : response.body with
      | error exc =>
        refine handleHttpx_classified candidate exc ?_ ?_ ?_
        · simp only [ResponseRaises, hbody, hreadable, hread, false_or, true_and]
        · rintro ⟨-, body, asset, h, -⟩
          rw [hbody] at h
          cases h
        · constructor
          · rintro (h | ⟨-, exc', h, hcaught⟩)
            · exact absurd h hfinal
            · rw [hbody] at h
              cases h
              exact hcaught
          · intro h
            exact .inr ⟨hread, exc, hbody, h⟩
      | ok delivered =>
        cases delivered with
        | some body => exact acquireBody_classified acquirer hsource hread hbody
        | none =>
          refine large ?_ ?_ ?_
          · simp only [ResponseRaises, hbody, hreadable, and_false, or_false, not_false_eq_true]
          · rintro ⟨-, body, asset, h, -⟩
            rw [hbody] at h
            cases h
          · rintro (h | ⟨-, exc, h, -⟩)
            · exact hfinal h
            · rw [hbody] at h
              cases h
  · exact acquireStatus_classified acquirer dates candidate hstatus

variable (chainId : Int) (address : String)

/-- What one attempt gives. -/
private theorem acquireCandidate_spec (attempt : Attempt) :
    Classified (Raises acquirer chainId address attempt) (Succeeds acquirer chainId address attempt)
      (Transient acquirer chainId address attempt) (Refused acquirer chainId address attempt)
      (acquireCandidate acquirer chainId address attempt) := by
  have skipped {code : String} (hcode : 1 ≤ sqlLength code) (h : ¬ Permitted acquirer chainId address attempt) :
      Classified (Raises acquirer chainId address attempt) (Succeeds acquirer chainId address attempt)
        (Transient acquirer chainId address attempt) (Refused acquirer chainId address attempt)
        (.ok (conclusive attempt.candidate code none)) :=
    classified_conclusive attempt.candidate hcode nofun (fun h' => h h'.1) (fun h' => h h'.1) (fun h' => h h'.1)
      fun h' => h h'.1
  unfold acquireCandidate
  dsimp only
  by_cases hsource : attempt.candidate.source ∈ logoSourceIds
  · rw [if_neg (not_not.2 hsource)]
    cases hallowed : acquirer.allowsImageUrl attempt.candidate.source chainId address attempt.candidate.url with
    | false =>
      refine skipped (by decide +kernel) fun h => ?_
      rw [h.2] at hallowed
      cases hallowed
    | true =>
      have hpermitted : Permitted acquirer chainId address attempt := ⟨hsource, hallowed⟩
      cases hanswer : attempt.answer with
      | error exc =>
        refine handleHttpx_classified attempt.candidate exc ?_ ?_ ?_
        · simp only [Raises, hpermitted, hanswer, true_and]
        · simp only [Succeeds, hanswer, and_false, not_false_eq_true]
        · simp only [Transient, hpermitted, hanswer, true_and]
      | ok response =>
        simp only [Raises, Succeeds, Transient, Refused, hpermitted, hanswer, true_and]
        exact acquireResponse_classified acquirer attempt.dates hsource response
  · rw [if_pos hsource]
    exact skipped (by decide +kernel) fun h => hsource h.1

/-! ### All attempts -/

/-- The results of the candidates: either the last one succeeds, or every attempt has its result. -/
def Asked (attempts : List Attempt) : Except Exn (List CandidateResult) → Prop
  | .error _ => RaisesWhileAsked acquirer chainId address attempts
  | .ok results =>
    ¬ RaisesWhileAsked acquirer chainId address attempts ∧ (∀ result ∈ results, result.Sound) ∧
      ((∃ attempt ∈ attempts, Succeeds acquirer chainId address attempt) ∧
          (∃ result ∈ results, result.outcome = .success) ∨
        (∀ attempt ∈ attempts, ¬ Succeeds acquirer chainId address attempt) ∧
          List.Forall₂ (fun attempt result =>
            Classified (Raises acquirer chainId address attempt) (Succeeds acquirer chainId address attempt)
              (Transient acquirer chainId address attempt) (Refused acquirer chainId address attempt) (.ok result))
            attempts results)

private theorem acquireCandidates_spec (attempts : List Attempt) :
    Asked acquirer chainId address attempts (acquireCandidates acquirer chainId address attempts) := by
  induction attempts with
  | nil => exact ⟨fun h => h, by simp, .inr ⟨by simp, .nil⟩⟩
  | cons attempt attempts ih =>
    have hspec := acquireCandidate_spec acquirer chainId address attempt
    unfold acquireCandidates
    cases hresult : acquireCandidate acquirer chainId address attempt with
    | error exc =>
      rw [hresult] at hspec
      exact .inl hspec
    | ok result =>
      rw [hresult] at hspec
      have hcalm : ¬ Raises acquirer chainId address attempt := hspec.1
      have hsound : result.Sound := hspec.2.1
      by_cases hs : result.outcome = .success
      · have hsucceeds : Succeeds acquirer chainId address attempt := hspec.2.2.1.1 hs
        simp only [bind, Except.bind, hs, if_true, pure, Except.pure]
        refine ⟨?_, ?_, .inl ⟨⟨attempt, List.mem_cons_self, hsucceeds⟩, ⟨result, List.mem_cons_self, hs⟩⟩⟩
        · rintro (h | ⟨h, -⟩)
          · exact hcalm h
          · exact h hsucceeds
        · intro r hr
          rw [List.mem_singleton.1 hr]
          exact hsound
      · have hfails : ¬ Succeeds acquirer chainId address attempt := fun h => hs (hspec.2.2.1.2 h)
        simp only [bind, Except.bind, hs, if_false, pure, Except.pure]
        cases hrest : acquireCandidates acquirer chainId address attempts with
        | error exc =>
          rw [hrest] at ih
          exact .inr ⟨hfails, ih⟩
        | ok results =>
          rw [hrest] at ih
          obtain ⟨hcalm', hsound', hresults⟩ := ih
          refine ⟨?_, ?_, ?_⟩
          · rintro (h | ⟨-, h⟩)
            · exact hcalm h
            · exact hcalm' h
          · intro r hr
            rcases List.mem_cons.1 hr with rfl | hr
            · exact hsound
            · exact hsound' r hr
          · rcases hresults with ⟨⟨a, ha, hsucceeds⟩, r, hr, hrs⟩ | ⟨hnone, hall⟩
            · exact .inl ⟨⟨a, List.mem_cons_of_mem _ ha, hsucceeds⟩, r, List.mem_cons_of_mem _ hr, hrs⟩
            · refine .inr ⟨?_, .cons hspec hall⟩
              intro a ha
              rcases List.mem_cons.1 ha with rfl | ha
              · exact hfails
              · exact hnone a ha

end Attempt

/-! ### The result of all attempts -/

/-- What every result of the acquirer satisfies. -/
structure AcquisitionResult.Sound (result : AcquisitionResult) : Prop where
  errorCode : 1 ≤ sqlLength result.errorCode
  httpStatus : ∀ status ∈ result.httpStatus, 100 ≤ status
  asset : result.outcome = .success →
    ∃ asset source, result.asset = some asset ∧ result.source = some source ∧ asset.Storable ∧
      source ∈ "override" :: logoSourceIds
  bounded : result.outcome ≠ .unavailable → ∀ status ∈ result.httpStatus, status ≤ 599

section Summarize

variable {results : List CandidateResult}

private theorem summarize_sound (h : ∀ result ∈ results, result.Sound) : (summarize results).Sound := by
  unfold summarize
  cases hsuccess : results.find? (·.outcome = .success) with
  | some result =>
    have hsound := h result (List.mem_of_find?_eq_some hsuccess)
    have houtcome : result.outcome = .success := by simpa using List.find?_some hsuccess
    obtain ⟨asset, hasset, hstorable⟩ := hsound.asset houtcome
    refine ⟨(by decide +kernel : 1 ≤ sqlLength "success"), hsound.httpStatus,
      fun _ => ⟨asset, result.source, hasset, rfl, hstorable, hsound.source houtcome⟩, fun _ => ?_⟩
    exact hsound.bounded (by rw [houtcome]; decide)
  | none =>
    cases htransient : results.find? (·.outcome = .transient) with
    | some result =>
      have hsound := h result (List.mem_of_find?_eq_some htransient)
      have houtcome : result.outcome = .transient := by simpa using List.find?_some htransient
      refine ⟨hsound.errorCode, hsound.httpStatus, nofun, fun _ => ?_⟩
      exact hsound.bounded (by rw [houtcome]; decide)
    | none =>
      cases hlast : results.getLast? with
      | none => exact ⟨(by decide +kernel : 1 ≤ sqlLength "no_candidate"), nofun, nofun, fun h => absurd rfl h⟩
      | some result =>
        have hsound := h result (List.mem_of_getLast? hlast)
        exact ⟨hsound.errorCode, hsound.httpStatus, nofun, fun h => absurd rfl h⟩

private theorem summarize_success : (summarize results).outcome = .success ↔
    ∃ result ∈ results, result.outcome = .success := by
  unfold summarize
  cases hsuccess : results.find? (·.outcome = .success) with
  | some result =>
    refine iff_of_true rfl ⟨result, List.mem_of_find?_eq_some hsuccess, ?_⟩
    simpa using List.find?_some hsuccess
  | none =>
    refine iff_of_false ?_ ?_
    · cases results.find? (·.outcome = .transient) with
      | some result => nofun
      | none => nofun
    · rintro ⟨result, hresult, houtcome⟩
      have := List.find?_eq_none.1 hsuccess result hresult
      simp [houtcome] at this

private theorem summarize_transient (hnone : ¬ ∃ result ∈ results, result.outcome = .success) :
    (summarize results).outcome = .transient ↔ ∃ result ∈ results, result.outcome = .transient := by
  have hsuccess : results.find? (·.outcome = .success) = none := by
    refine List.find?_eq_none.2 fun result hresult => ?_
    simpa using fun houtcome => hnone ⟨result, hresult, houtcome⟩
  unfold summarize
  rw [hsuccess]
  cases htransient : results.find? (·.outcome = .transient) with
  | some result =>
    refine iff_of_true rfl ⟨result, List.mem_of_find?_eq_some htransient, ?_⟩
    simpa using List.find?_some htransient
  | none =>
    refine iff_of_false nofun ?_
    rintro ⟨result, hresult, houtcome⟩
    have := List.find?_eq_none.1 htransient result hresult
    simp [houtcome] at this

/-- Without a success and without a transient failure the status is that of the last attempt. -/
private theorem summarize_unavailable (h : (summarize results).outcome = .unavailable) :
    (summarize results).httpStatus = results.getLast?.bind (·.httpStatus) := by
  unfold summarize at h ⊢
  cases hsuccess : results.find? (·.outcome = .success) with
  | some result =>
    rw [hsuccess] at h
    cases h
  | none =>
    rw [hsuccess] at h
    cases htransient : results.find? (·.outcome = .transient) with
    | some result =>
      rw [htransient] at h
      cases h
    | none => rfl

end Summarize

section Acquisition

variable (acquirer : Acquirer) (chainId : Int) (address : String)

def OverrideSucceeds : Prop :=
  ∃ imageBytes asset, acquirer.overrides.get? (chainId, address) = some imageBytes ∧
    validateOverride acquirer imageBytes = .ok asset

def OverrideRaises : Prop :=
  ∃ imageBytes name, acquirer.overrides.get? (chainId, address) = some imageBytes ∧
    validateOverride acquirer imageBytes = .error (.other name)

def AcquisitionRaises (attempts : List Attempt) : Prop :=
  OverrideRaises acquirer chainId address ∨
    ¬ OverrideSucceeds acquirer chainId address ∧ RaisesWhileAsked acquirer chainId address attempts

def AcquisitionSucceeds (attempts : List Attempt) : Prop :=
  OverrideSucceeds acquirer chainId address ∨ ∃ attempt ∈ attempts, Succeeds acquirer chainId address attempt

def AcquisitionTransient (attempts : List Attempt) : Prop :=
  ¬ AcquisitionSucceeds acquirer chainId address attempts ∧
    ∃ attempt ∈ attempts, Transient acquirer chainId address attempt

def LastRefused (attempts : List Attempt) : Prop :=
  ∃ attempt, attempts.getLast? = some attempt ∧ Refused acquirer chainId address attempt

/-- The result of the acquirer in terms of the answers. -/
structure Concluded (attempts : List Attempt) (result : AcquisitionResult) : Prop where
  sound : result.Sound
  success : result.outcome = .success ↔ AcquisitionSucceeds acquirer chainId address attempts
  transient : result.outcome = .transient ↔ AcquisitionTransient acquirer chainId address attempts
  refused : result.outcome = .unavailable →
    ((∃ status ∈ result.httpStatus, 599 < status) ↔ LastRefused acquirer chainId address attempts)

def Acquired (attempts : List Attempt) : Except Exn AcquisitionResult → Prop
  | .error _ => AcquisitionRaises acquirer chainId address attempts
  | .ok result =>
    ¬ AcquisitionRaises acquirer chainId address attempts ∧ Concluded acquirer chainId address attempts result

variable {acquirer chainId address}

/-- The results of all candidates, after those of an override that failed. -/
private theorem summarize_concluded {before results : List CandidateResult} {attempts : List Attempt}
    (hbefore : ∀ result ∈ before, result.Sound ∧ result.outcome = .conclusive ∧ result.httpStatus = none)
    (hoverride : ¬ OverrideSucceeds acquirer chainId address)
    (h : Asked acquirer chainId address attempts (.ok results)) :
    Concluded acquirer chainId address attempts (summarize (before ++ results)) := by
  obtain ⟨-, hsound, hresults⟩ := h
  have outcomes (outcome : CandidateOutcome) (houtcome : outcome ≠ .conclusive) :
      (∃ result ∈ before ++ results, result.outcome = outcome) ↔ ∃ result ∈ results, result.outcome = outcome := by
    constructor
    · rintro ⟨result, hresult, heq⟩
      rcases List.mem_append.1 hresult with hresult | hresult
      · rw [(hbefore result hresult).2.1] at heq
        exact absurd heq.symm houtcome
      · exact ⟨result, hresult, heq⟩
    · rintro ⟨result, hresult, heq⟩
      exact ⟨result, List.mem_append_right _ hresult, heq⟩
  have hall : ∀ result ∈ before ++ results, result.Sound := by
    intro result hresult
    rcases List.mem_append.1 hresult with hresult | hresult
    · exact (hbefore result hresult).1
    · exact hsound result hresult
  have hsuccess := summarize_success.trans (outcomes .success (by decide))
  rcases hresults with ⟨hsucceeds, hs⟩ | ⟨hnone, hforall⟩
  · have houtcome : (summarize (before ++ results)).outcome = .success := hsuccess.2 hs
    have hacquired : AcquisitionSucceeds acquirer chainId address attempts := .inr hsucceeds
    refine ⟨summarize_sound hall, iff_of_true houtcome hacquired, ?_, ?_⟩
    · rw [houtcome]
      exact iff_of_false nofun fun h => h.1 hacquired
    · rw [houtcome]
      nofun
  · have hfails : ¬ AcquisitionSucceeds acquirer chainId address attempts := by
      rintro (h | ⟨attempt, hattempt, h⟩)
      · exact hoverride h
      · exact hnone attempt hattempt h
    have hfailed : ¬ ∃ result ∈ results, result.outcome = .success := by
      rw [Eff.exists_mem_iff_of_forall₂ (hforall.imp fun attempt result h => h.2.2.1)]
      rintro ⟨attempt, hattempt, h⟩
      exact hnone attempt hattempt h
    have htransient : (summarize (before ++ results)).outcome = .transient ↔
        ∃ attempt ∈ attempts, Transient acquirer chainId address attempt := by
      rw [summarize_transient fun h => hfailed ((outcomes .success (by decide)).1 h), outcomes .transient (by decide)]
      exact Eff.exists_mem_iff_of_forall₂ (hforall.imp fun attempt result h => h.2.2.2.1)
    refine ⟨summarize_sound hall, iff_of_false (fun h => hfailed (hsuccess.1 h)) hfails, ?_, fun hunavailable => ?_⟩
    · exact htransient.trans ⟨fun h => ⟨hfails, h⟩, fun h => h.2⟩
    · rw [summarize_unavailable hunavailable]
      rcases Eff.getLast?_of_forall₂ hforall with ⟨rfl, rfl⟩ | ⟨attempt, result, hattempt, hresult, hspec⟩
      · -- without candidates the last result is that of the override
        refine iff_of_false ?_ ?_
        · rintro ⟨status, hstatus, -⟩
          rw [List.append_nil] at hstatus
          obtain ⟨result, hlast, hstatus⟩ := Option.bind_eq_some_iff.1 hstatus
          rw [(hbefore result (List.mem_of_getLast? hlast)).2.2] at hstatus
          cases hstatus
        · rintro ⟨attempt, h, -⟩
          cases h
      · have hconclusive : result.outcome = .conclusive := by
          have hmem : result ∈ results := List.mem_of_getLast? hresult
          cases houtcome : result.outcome with
          | success => exact absurd ⟨result, hmem, houtcome⟩ hfailed
          | transient =>
            have h : (summarize (before ++ results)).outcome = .transient := by
              rw [summarize_transient fun h => hfailed ((outcomes .success (by decide)).1 h)]
              exact ⟨result, List.mem_append_right _ hmem, houtcome⟩
            rw [hunavailable] at h
            cases h
          | conclusive => rfl
        have hlast : (before ++ results).getLast? = some result := by
          rw [List.getLast?_append, hresult]
          rfl
        rw [hlast]
        refine (hspec.2.2.2.2 hconclusive).trans ⟨fun h => ⟨attempt, hattempt, h⟩, ?_⟩
        rintro ⟨attempt', hattempt', h⟩
        rw [hattempt] at hattempt'
        cases hattempt'
        exact h

/-- The result of an override. -/
private theorem acquireOverride_classified (acquirer : Acquirer) (imageBytes : Bytes) :
    Classified (∃ name, validateOverride acquirer imageBytes = .error (.other name))
      (∃ asset, validateOverride acquirer imageBytes = .ok asset) False False
      (acquireOverride acquirer imageBytes) := by
  unfold acquireOverride
  cases hvalidate : validateOverride acquirer imageBytes with
  | ok asset =>
    obtain ⟨mimeType, -, hasset⟩ := Eff.except_bind_eq_ok.1 hvalidate
    have hcode : 1 ≤ sqlLength "success" := by decide +kernel
    refine ⟨?_, ⟨hcode, nofun, fun _ => ⟨asset, rfl, validateLogoBytes_storable hasset⟩, fun _ => List.mem_cons_self,
      fun _ => nofun⟩, iff_of_true rfl ⟨asset, rfl⟩, iff_of_false nofun id, nofun⟩
    rintro ⟨name, h⟩
    cases h
  | error exc =>
    cases exc with
    | validationError code =>
      have hnamed : CodesNamed (validateOverride acquirer imageBytes) :=
        (signatureMime_named imageBytes).bind fun mimeType => validateLogoBytes_named _ _ _ mimeType
      refine ⟨?_, ⟨hnamed code hvalidate, nofun, nofun, nofun, fun h => absurd rfl h⟩, iff_of_false nofun ?_,
        iff_of_false nofun id, fun _ => iff_of_false ?_ id⟩
      · rintro ⟨name, h⟩
        cases h
      · rintro ⟨asset, h⟩
        cases h
      · rintro ⟨status, h, -⟩
        cases h
    | other name => exact ⟨name, rfl⟩

private theorem acquireOverride_httpStatus {acquirer : Acquirer} {imageBytes : Bytes} {result : CandidateResult}
    (h : acquireOverride acquirer imageBytes = .ok result) : result.httpStatus = none := by
  unfold acquireOverride at h
  split at h
  · cases h
    rfl
  · cases h
    rfl
  · cases h

/-- A single success is the result. -/
private theorem summarize_singleton_concluded
    {result : CandidateResult} {attempts : List Attempt} (hsound : result.Sound)
    (hsuccess : result.outcome = .success) (hoverride : OverrideSucceeds acquirer chainId address) :
    Concluded acquirer chainId address attempts (summarize [result]) := by
  have houtcome : (summarize [result]).outcome = .success :=
    summarize_success.2 ⟨result, List.mem_singleton_self result, hsuccess⟩
  have hacquired : AcquisitionSucceeds acquirer chainId address attempts := .inl hoverride
  refine ⟨summarize_sound ?_, iff_of_true houtcome hacquired, ?_, ?_⟩
  · intro r hr
    rw [List.mem_singleton.1 hr]
    exact hsound
  · rw [houtcome]
    exact iff_of_false nofun fun h => h.1 hacquired
  · rw [houtcome]
    nofun

/-- What the acquirer returns for an identity in normal form. -/
theorem acquire_spec {eth : EthUtils} (hnormalized : Normalized eth address) (attempts : List Attempt) :
    Acquired acquirer chainId address attempts (acquire eth acquirer chainId address attempts) := by
  have hlookup : getLogoOverride eth acquirer chainId address = .ok (acquirer.overrides.get? (chainId, address)) := by
    unfold getLogoOverride
    rw [hnormalized]
    rfl
  have hasked := acquireCandidates_spec acquirer chainId address attempts
  unfold acquire
  rw [hlookup]
  simp only [bind, Except.bind]
  cases hget : acquirer.overrides.get? (chainId, address) with
  | none =>
    have hquiet : ¬ OverrideRaises acquirer chainId address := by
      rintro ⟨imageBytes, name, h, -⟩
      rw [hget] at h
      cases h
    have hfails : ¬ OverrideSucceeds acquirer chainId address := by
      rintro ⟨imageBytes, asset, h, -⟩
      rw [hget] at h
      cases h
    cases hresults : acquireCandidates acquirer chainId address attempts with
    | error exc =>
      rw [hresults] at hasked
      exact .inr ⟨hfails, hasked⟩
    | ok results =>
      rw [hresults] at hasked
      refine ⟨?_, @summarize_concluded _ _ _ [] _ _ (by simp) hfails hasked⟩
      rintro (h | ⟨-, h⟩)
      · exact hquiet h
      · exact hasked.1 h
  | some imageBytes =>
    have hraises : OverrideRaises acquirer chainId address ↔
        ∃ name, validateOverride acquirer imageBytes = .error (.other name) := by
      unfold OverrideRaises
      simp only [hget, Option.some.injEq, exists_and_left, exists_eq_left']
    have hsucceeds : OverrideSucceeds acquirer chainId address ↔
        ∃ asset, validateOverride acquirer imageBytes = .ok asset := by
      unfold OverrideSucceeds
      simp only [hget, Option.some.injEq, exists_and_left, exists_eq_left']
    have hspec := acquireOverride_classified acquirer imageBytes
    dsimp only
    cases hfirst : acquireOverride acquirer imageBytes with
    | error exc =>
      rw [hfirst] at hspec
      exact .inl (hraises.2 hspec)
    | ok first =>
      rw [hfirst] at hspec
      obtain ⟨hcalm, hsound, hsuccess, htransient, -⟩ := hspec
      have hquiet : ¬ OverrideRaises acquirer chainId address := fun h => hcalm (hraises.1 h)
      by_cases hs : first.outcome = .success
      · have hoverride : OverrideSucceeds acquirer chainId address := hsucceeds.2 (hsuccess.1 hs)
        simp only [hs, if_true, pure, Except.pure]
        refine ⟨?_, summarize_singleton_concluded hsound hs hoverride⟩
        rintro (h | ⟨h, -⟩)
        · exact hquiet h
        · exact h hoverride
      · have hfails : ¬ OverrideSucceeds acquirer chainId address := fun h => hs (hsuccess.2 (hsucceeds.1 h))
        have hconclusive : first.outcome = .conclusive := by
          cases houtcome : first.outcome with
          | success => exact absurd houtcome hs
          | transient => exact (htransient.1 houtcome).elim
          | conclusive => rfl
        simp only [hs, if_false]
        cases hresults : acquireCandidates acquirer chainId address attempts with
        | error exc =>
          rw [hresults] at hasked
          exact .inr ⟨hfails, hasked⟩
        | ok results =>
          rw [hresults] at hasked
          refine ⟨?_, @summarize_concluded _ _ _ [first] _ _ ?_ hfails hasked⟩
          · rintro (h | ⟨-, h⟩)
            · exact hquiet h
            · exact hasked.1 h
          · intro r hr
            rw [List.mem_singleton.1 hr]
            exact ⟨hsound, hconclusive, acquireOverride_httpStatus hfirst⟩

end Acquisition

end TokenPriceAgg
