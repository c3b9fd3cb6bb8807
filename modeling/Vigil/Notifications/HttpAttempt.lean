import Vigil.Importers.Rewrite
import Vigil.Notifications.Redaction

/-! `httpAttempt` and `httpDeliver` of `notifications/providers/types.ts`: one guarded request to a
provider, and the error text that is recorded for it. -/

namespace Vigil.Notifications.HttpAttempt

open Js.Text Lib.Marked Redaction
open Importers.Rewrite (includes)

/-- `ERROR_BODY_LIMIT` -/
def errorBodyLimit : ℕ := 300

/-- One value of a chain of causes, with its message, or what `String` gives where it is no
`Error`. -/
structure Thrown (τ : Type) where
  isError : Bool
  code : Option JsString
  text : τ

/-- What `egressFetch` comes to. -/
inductive Answer (τ : Type) where
  /-- `body` is `none` where reading it throws. -/
  | response (status : ℕ) (statusText : τ) (retryAfter : Option JsString) (body : Option τ)
  | blocked (message : τ)
  | failed (error : Thrown τ) (causes : List (Thrown τ))

/-- The same answer with its texts in another form. -/
def Answer.map {τ σ : Type} (f : τ → σ) : Answer τ → Answer σ
  | .response status statusText retryAfter body =>
    .response status (f statusText) retryAfter (body.map f)
  | .blocked message => .blocked (f message)
  | .failed error causes =>
    .failed ⟨error.isError, error.code, f error.text⟩
      (causes.map fun e => ⟨e.isError, e.code, f e.text⟩)

/-- Functions of the language, and the header that is read with them. -/
structure Platform where
  toLowerCase : JsString → JsString
  parseRetryAfterMs : Option JsString → Option ℕ

structure HttpDeliveryRequest where
  /-- `Object.values(request.secrets)` -/
  secrets : List JsString
  acceptedStatuses : List ℕ
  messageId : Option (JsString → Option JsString)
  retryAfterFromBody : Option (JsString → Option ℕ)
  bodyProblem : Option (JsString → Option JsString)

/-- How a delivery that failed is to be taken. -/
inductive FailureStatus where
  | retryable
  | permanent
  | unknown
  deriving DecidableEq, Repr

/-- What came of a delivery. -/
inductive DeliveryOutcome where
  | delivered (providerMessageId : Option JsString) (httpStatus : ℕ)
  | failure (status : FailureStatus) (error : JsString) (httpStatus retryAfterMs : Option ℕ)

/-- `HttpAttempt` -/
inductive Attempt where
  | ok (status : ℕ) (body : JsString)
  | notOk (outcome : DeliveryOutcome)

def nothingSentCodes : List JsString :=
  [js "ECONNREFUSED", js "ENOTFOUND", js "EAI_AGAIN", js "EHOSTUNREACH", js "ENETUNREACH",
    js "ERR_TLS_CERT_ALTNAME_INVALID", js "CERT_HAS_EXPIRED", js "DEPTH_ZERO_SELF_SIGNED_CERT",
    js "ERR_SSL_WRONG_VERSION_NUMBER"]

def nothingSentTexts : List JsString :=
  [js "econnrefused", js "enotfound", js "getaddrinfo", js "certificate", js "self-signed"]

/-- `sentNothing`, over the first five errors of the chain. -/
def sentNothing (platform : Platform) (chain : List (Thrown JsString)) : Bool :=
  (chain.take 5).any fun error =>
    error.code.any nothingSentCodes.contains ||
      nothingSentTexts.any fun word => includes (platform.toLowerCase error.text) word

def requestFailed : JsString := js "provider request failed"

def isOk (status : ℕ) : Bool := 200 ≤ status && status ≤ 299

/-- `` `${status}: ${bodyText.slice(0, ERROR_BODY_LIMIT) || statusText}` `` -/
def detailText (status : ℕ) (statusText bodyText : JsString) : JsString :=
  decimal status ++ (js ": " ++
    if bodyText.take errorBodyLimit = [] then statusText else bodyText.take errorBodyLimit)

/-- One request: what came back is accepted, or the outcome that its failure stands for. -/
def httpAttempt (platform : Platform) (request : HttpDeliveryRequest) : Answer JsString → Attempt
  | .response status statusText retryAfter body =>
    let bodyText := (body.getD []).take 2000
    if isOk status || request.acceptedStatuses.contains status then .ok status bodyText
    else
      let detail := redactErrorText (detailText status statusText bodyText) request.secrets
      if status = 429 ∨ status = 408 ∨ 500 ≤ status then
        .notOk (.failure .retryable detail (some status)
          ((platform.parseRetryAfterMs retryAfter).or
            (request.retryAfterFromBody.bind fun read => read bodyText)))
      else .notOk (.failure .permanent detail (some status) none)
  | .blocked message =>
    .notOk (.failure .permanent (redactErrorText message request.secrets) none none)
  | .failed error causes =>
    let message := if error.isError then error.text else requestFailed
    .notOk (.failure (if sentNothing platform (error :: causes) then .retryable else .unknown)
      (redactErrorText message request.secrets) none none)

/-- `request.bodyProblem?.(body)`, where it is truthy. -/
def problemOf (request : HttpDeliveryRequest) (body : JsString) : Option JsString :=
  (request.bodyProblem.bind fun find => find body).filter (· ≠ [])

def httpDeliver (platform : Platform) (request : HttpDeliveryRequest) (answer : Answer JsString) :
    DeliveryOutcome :=
  match httpAttempt platform request answer with
  | .notOk outcome => outcome
  | .ok status body =>
    match problemOf request body with
    | some problem =>
      .failure .permanent
        (redactErrorText (problem ++ (js ": " ++ body.take errorBodyLimit)) request.secrets)
        (some status) none
    | none => .delivered (request.messageId.bind fun read => read body) status

/-! ### What is recorded -/

def DeliveryOutcome.error : DeliveryOutcome → Option JsString
  | .delivered _ _ => none
  | .failure _ error _ _ => some error

def Attempt.error : Attempt → Option JsString
  | .ok _ _ => none
  | .notOk outcome => outcome.error

/-- The pieces that the first `limit` units of a text are; `none` where the limit falls inside a
marked word. -/
def keep (secrets : List JsString) : ℕ → Pieces → Option Pieces
  | _, [] => some []
  | limit, piece :: rest =>
    let length := (piece.text (words secrets)).length
    if limit = 0 then some []
    else if length ≤ limit then (keep secrets (limit - length) rest).map (piece :: ·)
    else none

theorem take_keep {secrets : List JsString} :
    ∀ {limit : ℕ} {text kept : Pieces}, keep secrets limit text = some kept →
      (render (words secrets) text).take limit = render (words secrets) kept
  | limit, [], kept, h => by
    cases h
    exact List.take_nil
  | limit, piece :: rest, kept, h => by
    rw [keep] at h
    split at h
    · rename_i hzero
      cases h
      rw [hzero]
      rfl
    · split at h
      · rename_i hfits
        obtain ⟨more, hmore, rfl⟩ := Option.map_eq_some_iff.mp h
        rw [render_cons, render_cons, List.take_append, List.take_of_length_le hfits, take_keep hmore]
      · cases h

/-- The text that `httpAttempt` redacts, in pieces. -/
def detailPieces (secrets : List JsString) (status : ℕ) (statusText body : Pieces) : Option Pieces :=
  (keep secrets errorBodyLimit body).map fun kept =>
    plain (decimal status ++ js ": ") ++
      if render (words secrets) kept = [] then statusText else kept

theorem detailText_render {secrets : List JsString} {status : ℕ} {statusText body detail : Pieces}
    (h : detailPieces secrets status statusText body = some detail) :
    detailText status (render (words secrets) statusText)
        ((render (words secrets) body).take 2000) =
      render (words secrets) detail := by
  obtain ⟨kept, hkept, rfl⟩ := Option.map_eq_some_iff.mp h
  have hcut : ((render (words secrets) body).take 2000).take errorBodyLimit =
      render (words secrets) kept := by
    rw [List.take_take]
    exact take_keep hkept
  rw [detailText, hcut, render_append, render_plain, List.append_assoc]
  split <;> rfl

/-- A text is clear with either of two lists of secrets. -/
def BothClear (secrets secrets' : List JsString) (text : Pieces) : Prop :=
  Clear secrets text ∧ Clear secrets' text

/-- The text that is redacted stands in the answer in the same pieces for either list of secrets, and
is clear with both. -/
def Legible (request : HttpDeliveryRequest) (secrets secrets' : List JsString) :
    Answer Pieces → Prop
  | .response status statusText _ body =>
    if isOk status || request.acceptedStatuses.contains status then
      ∃ problem : Option Pieces,
        problemOf request ((render (words secrets) (body.getD [])).take 2000) =
          problem.map (render (words secrets)) ∧
        problemOf request ((render (words secrets') (body.getD [])).take 2000) =
          problem.map (render (words secrets')) ∧
        ∀ found, problem = some found → ∃ kept,
          keep secrets errorBodyLimit (body.getD []) = some kept ∧
          keep secrets' errorBodyLimit (body.getD []) = some kept ∧
          BothClear secrets secrets' (found ++ (plain (js ": ") ++ kept))
    else ∃ detail, detailPieces secrets status statusText (body.getD []) = some detail ∧
      detailPieces secrets' status statusText (body.getD []) = some detail ∧
      BothClear secrets secrets' detail
  | .blocked message => BothClear secrets secrets' message
  | .failed error _ =>
    BothClear secrets secrets' (if error.isError then error.text else plain requestFailed)

/-- The request with other secrets. -/
def HttpDeliveryRequest.withSecrets (request : HttpDeliveryRequest) (secrets : List JsString) :
    HttpDeliveryRequest := { request with secrets }

/-- The answer as the provider sends it. -/
def written (secrets : List JsString) (answer : Answer Pieces) : Answer JsString :=
  answer.map (render (words secrets))

section

variable {platform : Platform} {request : HttpDeliveryRequest} {secrets secrets' : List JsString}

/-- What makes two redactions of one marked text the same. -/
structure Counterparts (secrets secrets' : List JsString) : Prop where
  lengths : secrets'.map List.length = secrets.map List.length
  long : ∀ value ∈ secrets, 4 ≤ value.length

theorem Counterparts.redact (h : Counterparts secrets secrets') {text : Pieces}
    (hclear : BothClear secrets secrets' text) :
    redactErrorText (render (words secrets) text) secrets =
      redactErrorText (render (words secrets') text) secrets' := by
  have hcount : secrets'.length = secrets.length := by
    simpa using congrArg List.length h.lengths
  have hlong' : ∀ value ∈ secrets', 4 ≤ value.length := by
    intro value hvalue
    have hlength : value.length ∈ secrets.map List.length :=
      h.lengths ▸ List.mem_map_of_mem hvalue
    obtain ⟨counterpart, hmem, heq⟩ := List.mem_map.mp hlength
    exact heq ▸ h.long counterpart hmem
  exact redactErrorText_congr hcount h.long hlong' hclear.1 hclear.2

/-- The error of a refusal, of which nothing but the status depends on more than one text. -/
theorem attempt_error_congr {answer : Answer Pieces} (h : Counterparts secrets secrets')
    (hlegible : Legible request secrets secrets' answer) :
    (httpAttempt platform (request.withSecrets secrets) (written secrets answer)).error =
      (httpAttempt platform (request.withSecrets secrets') (written secrets' answer)).error := by
  cases answer with
  | blocked message => exact congrArg some (h.redact hlegible)
  | failed error causes =>
    have hredact := h.redact hlegible
    cases hkind : error.isError with
    | true =>
      rw [hkind] at hredact
      simp only [written, Answer.map, httpAttempt, hkind, Attempt.error, DeliveryOutcome.error]
      exact congrArg some hredact
    | false =>
      rw [hkind] at hredact
      simp only [Bool.false_eq_true, if_false, render_plain] at hredact
      simp only [written, Answer.map, httpAttempt, hkind, Attempt.error, DeliveryOutcome.error]
      exact congrArg some hredact
  | response status statusText retryAfter body =>
    have hbody (words : Mark → JsString) :
        (body.map (render words)).getD [] = render words (body.getD []) := by
      cases body <;> rfl
    simp only [written, Answer.map, httpAttempt, hbody, HttpDeliveryRequest.withSecrets]
    rw [Legible] at hlegible
    split
    · rfl
    · rename_i hrefused
      rw [if_neg hrefused] at hlegible
      obtain ⟨detail, hdetail, hdetail', hclear⟩ := hlegible
      rw [detailText_render hdetail, detailText_render hdetail', h.redact hclear]
      split <;> rfl

variable {status : ℕ}

theorem httpAttempt_accepted {statusText : JsString} {retryAfter body : Option JsString}
    (h : (isOk status || request.acceptedStatuses.contains status) = true) :
    httpAttempt platform request (.response status statusText retryAfter body) =
      .ok status ((body.getD []).take 2000) := by
  rw [httpAttempt, if_pos h]

theorem httpAttempt_refused {statusText : JsString} {retryAfter body : Option JsString}
    (h : ¬(isOk status || request.acceptedStatuses.contains status) = true) :
    ∃ outcome, httpAttempt platform request (.response status statusText retryAfter body) =
      .notOk outcome := by
  rw [httpAttempt, if_neg h]
  split
  · exact ⟨_, rfl⟩
  · exact ⟨_, rfl⟩

theorem deliver_error {answer : Answer JsString} {outcome : DeliveryOutcome}
    (h : httpAttempt platform request answer = .notOk outcome) :
    (httpDeliver platform request answer).error = (httpAttempt platform request answer).error := by
  rw [httpDeliver, h]
  rfl

/-- The error of an accepted answer whose body says that it was not. -/
theorem problem_error_congr {statusText : Pieces} {retryAfter : Option JsString}
    {body : Option Pieces} (h : Counterparts secrets secrets')
    (haccepted : (isOk status || request.acceptedStatuses.contains status) = true)
    (hlegible : Legible request secrets secrets' (.response status statusText retryAfter body)) :
    (httpDeliver platform (request.withSecrets secrets)
        (written secrets (.response status statusText retryAfter body))).error =
      (httpDeliver platform (request.withSecrets secrets')
        (written secrets' (.response status statusText retryAfter body))).error := by
  rw [Legible, if_pos haccepted] at hlegible
  obtain ⟨problem, hproblem, hproblem', htext⟩ := hlegible
  have hattempt (known : List JsString) :
      httpAttempt platform (request.withSecrets known)
          (written known (.response status statusText retryAfter body)) =
        .ok status ((render (words known) (body.getD [])).take 2000) := by
    have hbody : (body.map (render (words known))).getD [] = render (words known) (body.getD []) := by
      cases body <;> rfl
    rw [← hbody]
    exact httpAttempt_accepted haccepted
  have hfind (known : List JsString) (text : JsString) :
      problemOf (request.withSecrets known) text = problemOf request text := rfl
  unfold httpDeliver
  rw [hattempt, hattempt]
  simp only [hfind, hproblem, hproblem']
  cases problem with
  | none => rfl
  | some found =>
    obtain ⟨kept, hkept, hkept', hclear⟩ := htext found rfl
    have hcut {known : List JsString}
        (hknown : keep known errorBodyLimit (body.getD []) = some kept) :
        render (words known) found ++ (js ": " ++
            ((render (words known) (body.getD [])).take 2000).take errorBodyLimit) =
          render (words known) (found ++ (plain (js ": ") ++ kept)) := by
      have htake : ((render (words known) (body.getD [])).take 2000).take errorBodyLimit =
          render (words known) kept := by
        rw [List.take_take]
        exact take_keep hknown
      rw [render_append, render_append, render_plain, htake]
    have hredact := h.redact hclear
    rw [← hcut hkept, ← hcut hkept'] at hredact
    exact congrArg some hredact

/-- Where the redacted text is legible with two lists of secrets, the recorded error is the same. -/
theorem recorded_error_congr (platform : Platform) (request : HttpDeliveryRequest)
    (secrets secrets' : List JsString) (answer : Answer Pieces)
    (h : Counterparts secrets secrets') (hlegible : Legible request secrets secrets' answer) :
    (httpAttempt platform (request.withSecrets secrets) (written secrets answer)).error =
        (httpAttempt platform (request.withSecrets secrets') (written secrets' answer)).error ∧
      (httpDeliver platform (request.withSecrets secrets) (written secrets answer)).error =
        (httpDeliver platform (request.withSecrets secrets') (written secrets' answer)).error := by
  have hattempt : (httpAttempt platform (request.withSecrets secrets) (written secrets answer)).error =
      (httpAttempt platform (request.withSecrets secrets') (written secrets' answer)).error :=
    attempt_error_congr h hlegible
  refine ⟨hattempt, ?_⟩
  cases answer with
  | blocked message => exact hattempt
  | failed error causes => exact hattempt
  | response status statusText retryAfter body =>
    cases haccepted : isOk status || request.acceptedStatuses.contains status with
    | true => exact problem_error_congr h haccepted hlegible
    | false =>
      have hnot : ¬(isOk status || request.acceptedStatuses.contains status) = true := by
        rw [haccepted]
        exact Bool.false_ne_true
      obtain ⟨_, hone⟩ : ∃ outcome, httpAttempt platform (request.withSecrets secrets)
          (written secrets (.response status statusText retryAfter body)) = .notOk outcome :=
        httpAttempt_refused hnot
      obtain ⟨_, hother⟩ : ∃ outcome, httpAttempt platform (request.withSecrets secrets')
          (written secrets' (.response status statusText retryAfter body)) = .notOk outcome :=
        httpAttempt_refused hnot
      rw [deliver_error hone, deliver_error hother, hattempt]

end

def samplePlatform : Platform := ⟨id, fun _ => none⟩

def sampleRequest : HttpDeliveryRequest := ⟨[js "tok-51"], [], none, none, none⟩

/-- The provider quotes the secret and a URL that holds it. -/
def sampleBody : Pieces :=
  plain (js "no such token ") ++
    .mark (0, .raw) :: (plain (js ", see https://api.example/") ++ [.mark (0, .raw)])

theorem clear_sample {secret : JsString} (h : secret = js "tok-51" ∨ secret = js "998877") :
    Clear [secret] (plain (js "401: ") ++ sampleBody) where
  marked m hm := by
    simp only [sampleBody, plain, List.mem_append, List.mem_cons, List.mem_map, List.not_mem_nil,
      Piece.mark.injEq, reduceCtorEq, and_false, exists_false, false_or, or_false, or_self] at hm
    subst hm
    exact Nat.one_pos
  apart := by
    rcases h with rfl | rfl
    · decide +kernel
    · decide +kernel

theorem sample_error_congr :
    (httpAttempt samplePlatform (sampleRequest.withSecrets [js "tok-51"])
        (written [js "tok-51"] (.response 401 [] none (some sampleBody)))).error =
      (httpAttempt samplePlatform (sampleRequest.withSecrets [js "998877"])
        (written [js "998877"] (.response 401 [] none (some sampleBody)))).error :=
  (recorded_error_congr samplePlatform sampleRequest [js "tok-51"] [js "998877"]
    (.response 401 [] none (some sampleBody)) ⟨by decide, List.forall_mem_singleton.mpr (by decide)⟩
    ⟨plain (js "401: ") ++ sampleBody, by decide +kernel, by decide +kernel,
      clear_sample (.inl rfl), clear_sample (.inr rfl)⟩).1

/-- A body of which the first `errorBodyLimit` units end after four units of the secret. -/
def cutBody (secret : JsString) : JsString := List.replicate 296 0x78 ++ secret

/-- The beginning of the secret is recorded. -/
theorem cut_secret_recorded :
    (httpAttempt samplePlatform (sampleRequest.withSecrets [js "tok-51"])
        (.response 401 [] none (some (cutBody (js "tok-51"))))).error =
      some (js "401: " ++ cutBody (js "tok-")) ∧
    (httpAttempt samplePlatform (sampleRequest.withSecrets [js "998877"])
        (.response 401 [] none
          (some (replaceAll (js "tok-51") (js "998877") (cutBody (js "tok-51")))))).error =
      some (js "401: " ++ cutBody (js "9988")) := by
  decide +kernel

end Vigil.Notifications.HttpAttempt
