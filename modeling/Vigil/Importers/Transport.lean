import Vigil.Monitors.Push

/-! What every provider is read through: the readers of `providers/json.ts` and the requests of
`importers/transport.ts`.  What is fetched for a request may depend on how many were sent before. -/

namespace Vigil.Importers.Transport

open Js.Text Ledger.Canonical
open Monitors.Push (trim)

/-! ### JSON -/

abbrev Fields := List (JsString × JsValue)

def obj : JsValue → Fields
  | .object entries => entries
  | _ => []

def arr : JsValue → List JsValue
  | .array items => items
  | _ => []

/-- A non-empty trimmed string, or a number as one. -/
def str : JsValue → Option JsString
  | .string s =>
    let trimmed := trim s
    if trimmed.length > 0 then some trimmed else none
  | .number .notFinite => none
  | .number x => some (encodeUtf16 x.chars)
  | _ => none

/-- A field of what `obj` gives. -/
def field (fields : Fields) (name : String) : JsValue := (fields.lookup (js name)).getD .undefined

/-! ### Requests -/

/-- What a read throws. -/
inductive ReadError where
  /-- `ProviderApiError` of the ceiling. -/
  | ceiling (maxRequests : ℕ)
  /-- `ProviderApiError` of a status. -/
  | status (status : ℕ)
  | notJson
  /-- The fetcher throws. -/
  | fetch
  | typeError
  deriving DecidableEq

/-- `response.name`, of a response that may be anything. -/
def property (response : JsValue) (name : String) : Except ReadError JsValue :=
  match response with
  | .undefined | .null => .error .typeError
  | _ => .ok (field (obj response) name)

/-- What is asked of the source. -/
structure Request where
  path : String
  query : List (String × JsString)
  deriving DecidableEq

/-- `body` is what `JSON.parse` makes of the body, if anything. -/
structure HttpResponse where
  status : ℕ
  body : Option JsValue

/-- `fetch` is given the number of the request. -/
structure ProviderTransport where
  fetch : ℕ → Request → Option HttpResponse
  maxRequests : ℕ := 5000
  maxRetries : ℕ := 4

/-- `#send`, with the retries that are left and the requests so far. -/
def ProviderTransport.send (transport : ProviderTransport) (request : Request) :
    ℕ → ℕ → ℕ × Except ReadError (Option JsValue)
  | retries, requests =>
    let requests := requests + 1
    if requests > transport.maxRequests then (requests, .error (.ceiling transport.maxRequests))
    else
      match transport.fetch requests request with
      | none => (requests, .error .fetch)
      | some response =>
        if 200 ≤ response.status ∧ response.status < 300 then (requests, .ok response.body)
        else
          let retryable := response.status = 429 ∨ response.status ≥ 500
          match retries with
          | 0 => (requests, .error (.status response.status))
          | retries + 1 =>
            if retryable then transport.send request retries requests
            else (requests, .error (.status response.status))

def ProviderTransport.json (transport : ProviderTransport) (request : Request) (requests : ℕ) :
    ℕ × Except ReadError JsValue :=
  match transport.send request transport.maxRetries requests with
  | (requests, .error error) => (requests, .error error)
  | (requests, .ok none) => (requests, .error .notJson)
  | (requests, .ok (some value)) => (requests, .ok value)

/-! ### The ceiling -/

theorem ProviderTransport.send_ok (transport : ProviderTransport) (request : Request)
    {retries requests sent : ℕ} {body : Option JsValue} (h : transport.send request retries requests = (sent, .ok body)) :
    requests < sent ∧ sent ≤ transport.maxRequests := by
  induction retries generalizing requests with
  | zero =>
    rw [ProviderTransport.send] at h
    dsimp only at h
    split at h
    · cases h
    · rename_i hwithin
      split at h
      · cases h
      · split at h
        · obtain ⟨rfl, -⟩ := Prod.mk.inj h
          omega
        · cases h
  | succ retries ih =>
    rw [ProviderTransport.send] at h
    dsimp only at h
    split at h
    · cases h
    · rename_i hwithin
      split at h
      · cases h
      · split at h
        · obtain ⟨rfl, -⟩ := Prod.mk.inj h
          omega
        · split at h
          · have hlater := ih h
            omega
          · cases h

theorem ProviderTransport.json_ok (transport : ProviderTransport) (request : Request)
    {requests sent : ℕ} {value : JsValue} (h : transport.json request requests = (sent, .ok value)) :
    requests < sent ∧ sent ≤ transport.maxRequests := by
  unfold ProviderTransport.json at h
  split at h
  · cases h
  · cases h
  · rename_i hsend
    obtain ⟨rfl, -⟩ := Prod.mk.inj h
    exact transport.send_ok request hsend

/-- The same provider, up to a number of requests. -/
def ProviderTransport.Agrees (transport : ProviderTransport)
    (fetch : ℕ → Request → Option HttpResponse) : Prop :=
  ∀ requests ≤ transport.maxRequests, ∀ request,
    fetch requests request = transport.fetch requests request

/-- What the provider would answer beyond the ceiling plays no part. -/
theorem ProviderTransport.Agrees.send {transport : ProviderTransport}
    {fetch : ℕ → Request → Option HttpResponse} (h : transport.Agrees fetch) (request : Request) (retries requests : ℕ) :
    { transport with fetch := fetch }.send request retries requests =
      transport.send request retries requests := by
  induction retries generalizing requests with
  | zero =>
    rw [ProviderTransport.send, ProviderTransport.send]
    dsimp only
    by_cases hceiling : requests + 1 > transport.maxRequests
    · rw [if_pos hceiling, if_pos hceiling]
    · rw [if_neg hceiling, if_neg hceiling, h _ (by omega)]
  | succ retries ih =>
    rw [ProviderTransport.send, ProviderTransport.send]
    dsimp only
    by_cases hceiling : requests + 1 > transport.maxRequests
    · rw [if_pos hceiling, if_pos hceiling]
    · rw [if_neg hceiling, if_neg hceiling, h _ (by omega)]
      simp only [ih]

theorem ProviderTransport.Agrees.json {transport : ProviderTransport}
    {fetch : ℕ → Request → Option HttpResponse} (h : transport.Agrees fetch) (request : Request) (requests : ℕ) :
    { transport with fetch := fetch }.json request requests = transport.json request requests := by
  rw [ProviderTransport.json, ProviderTransport.json, h.send]

end Vigil.Importers.Transport
