import Vigil.Net.Fetch

/-! The guarded request of `monitors/egress.ts`: resolve, classify, connect to the address that was
classified, and walk any redirect chain one validated hop at a time.  The transport is the
address-pinned client; an injected one resolves on its own and is the caller's business.  The URL
parser of the platform is a parameter, and what a run meets outside (the answers of the resolver, an
abort, the responses) is given for each hop. -/

namespace Vigil.Net.Egress

open Js.Text Address Fetch

/-- The parts of a parsed URL that the guard reads. -/
structure Url where
  href : JsString
  protocol : JsString
  hostname : JsString
  origin : JsString
  port : JsString
  pathname : JsString
  search : JsString
  deriving DecidableEq, Repr

/-- `new URL(input)` and `new URL(input, base)`; `none` is the `TypeError`. -/
structure UrlParser where
  parse : JsString → Option Url
  parseWith : JsString → Url → Option Url

def Url.isHttp (url : Url) : Prop := url.protocol = js "http:" ∨ url.protocol = js "https:"

instance (url : Url) : Decidable url.isHttp := inferInstanceAs (Decidable (_ ∨ _))

/-- A URL that the parser produced is what the parser makes of its serialization. -/
def UrlParser.Reparses (parser : UrlParser) : Prop :=
  (∀ input url, parser.parse input = some url → url.isHttp → parser.parse url.href = some url) ∧
  (∀ input base url, parser.parseWith input base = some url → url.isHttp →
    parser.parse url.href = some url)

/-- Who asks for the request. -/
inductive EgressChannel where
  | monitor
  | webhook
  | recovery
  deriving DecidableEq, Repr

structure EgressPolicy where
  channel : EgressChannel
  allowPrivate : Bool
  deriving DecidableEq, Repr

/-- An address that the resolver gave for a name. -/
structure ResolvedAddress where
  address : JsString
  family : ℕ
  deriving DecidableEq, Repr

structure EgressDecision where
  pin : Option ResolvedAddress
  classification : Option AddressClass
  exception : Bool
  deriving DecidableEq, Repr

/-- What a request may end with in the place of a response. -/
inductive EgressError where
  | blocked (message : JsString)
  | invalidUrl
  | invalidHeaders
  | lookupFailed
  | aborted
  | fetchFailed
  deriving DecidableEq, Repr

/-! ### Authorization -/

def egressBlockReason : AddressClass → JsString
  | .metadata => js "Target resolves to a cloud metadata address"
  | .linkLocal => js "Target resolves to a link-local address"
  | .unspecified | .reserved => js "Target resolves to a reserved address"
  | .public_ | .private_ | .loopback => js "Target resolves to a private address"

/-- The addresses behind a host: the literal that it is, or the resolver's answer. -/
def addressesOf (lookup : JsString → Option (List ResolvedAddress)) (hostname : JsString) :
    Option (List ResolvedAddress) :=
  match parseAddress hostname with
  | some literal => some [⟨hostname, literal.family⟩]
  | none => lookup hostname

/-- The class for which an address is refused; one that cannot be read counts as reserved. -/
def refusedClass (policy : EgressPolicy) (a : ResolvedAddress) : Option AddressClass :=
  let classification := (classifyAddress a.address).getD .reserved
  if classification = .public_ then none
  else if isNeverReachable classification || !policy.allowPrivate then some classification
  else none

/-- Every address of the answer has to be allowed; the first of them is the one to dial. -/
def authorizeEgress (policy : EgressPolicy) (lookup : JsString → Option (List ResolvedAddress))
    (url : Url) : Except EgressError EgressDecision :=
  if ¬url.isHttp then
    .error (.blocked (js "Only http and https targets can be reached, not " ++
      url.protocol.erase 0x3A))
  else
    let hostname := normalizeHost url.hostname
    if FORBIDDEN_HOSTNAMES.contains hostname then
      .error (.blocked (js "Target is a cloud metadata endpoint"))
    else
      match addressesOf lookup hostname with
      | none => .error .lookupFailed
      | some [] => .error (.blocked (js "Target did not resolve to any address"))
      | some (first :: rest) =>
        match (first :: rest).findSome? (refusedClass policy) with
        | some classification => .error (.blocked (egressBlockReason classification))
        | none =>
          let classification := classifyAddress first.address
          .ok
            { pin := some first
              classification
              exception := classification ≠ none && classification ≠ some .public_ }

/-! ### The address-pinned transport -/

structure Call where
  hop : ℕ
  url : Url
  hostname : JsString
  port : JsString
  path : JsString
  method : JsString
  headers : List (JsString × JsString)
  body : Option Body
  pin : ResolvedAddress
  deriving DecidableEq, Repr

/-- The request of a parsed URL, dialled at the pin and not resolved again. -/
def pinnedRequest (hop : ℕ) (url : Url) (method : JsString) (headers : HeadersInit)
    (body : Option Body) (aborted : Bool) (pin : ResolvedAddress) : Except EgressError Call :=
  match requestHeaders headers body with
  | none => .error .invalidHeaders
  | some wire =>
    if aborted then .error .aborted
    else
      .ok
        { hop
          url
          hostname := normalizeHost url.hostname
          port :=
            if url.port = [] then
              if url.protocol = js "https:" then js "443" else js "80"
            else url.port
          path := url.pathname ++ url.search
          method := toUpperCase method
          headers := wire
          body
          pin }

/-- The request of a decision that has a pin. -/
def pinnedFetch (parser : UrlParser) (hop : ℕ) (pin : Option ResolvedAddress) (target : JsString)
    (method : JsString) (headers : HeadersInit) (body : Option Body) (aborted : Bool) :
    Except EgressError Call :=
  match pin with
  | none => .error (.blocked (js "Target did not resolve to any address"))
  | some pin =>
    match parser.parse target with
    | none => .error .invalidUrl
    | some url => pinnedRequest hop url method headers body aborted pin

/-! ### The redirect loop -/

def MAX_REDIRECT_HOPS : ℕ := 10

def REDIRECT_STATUSES : List ℕ := [301, 302, 303, 307, 308]

/-- Headers that must not survive a hop to a different origin. -/
def ORIGIN_BOUND_HEADERS : List JsString :=
  [js "authorization", js "cookie", js "x-vigil-signature"]

/-- What a response tells the guard. -/
structure Response where
  status : ℕ
  location : Option JsString
  deriving DecidableEq, Repr

structure EgressFetchOptions where
  policy : EgressPolicy
  maxRedirects : Option ℕ

/-- The method, headers and body that a caller gives. -/
structure EgressRequestInit where
  method : Option JsString
  headers : HeadersInit
  body : Option Body

structure Outside where
  lookup : ℕ → JsString → Option (List ResolvedAddress)
  aborted : ℕ → Bool
  response : ℕ → Option Response

structure EgressFetchResult where
  response : Response
  finalUrl : JsString
  redirects : ℕ
  decisions : List EgressDecision
  deriving DecidableEq, Repr

/-- What the next hop sends. -/
structure Request where
  url : Url
  method : JsString
  body : Option Body
  headers : HeadersInit

def downgrades (status : ℕ) (method : JsString) : Bool :=
  status = 303 ||
    ((status = 301 || status = 302) && method ≠ js "GET" && method ≠ js "HEAD")

/-- The request for the next hop; `none` when the headers cannot be copied. -/
def redirected (request : Request) (status : ℕ) (next : Url) : Option Request :=
  (newHeaders request.headers).map fun mutable =>
    let mutable :=
      if next.origin ≠ request.url.origin then ORIGIN_BOUND_HEADERS.foldl Headers.delete mutable
      else mutable
    if downgrades status request.method then
      { url := next
        method := js "GET"
        body := none
        headers := .headers ((mutable.delete (js "content-type")).delete (js "content-length")) }
    else { request with url := next, headers := .headers mutable }

/-- The loop from `hop` on, with `remaining` redirects to go: the requests that go out, and what the
caller gets. -/
def follow (parser : UrlParser) (policy : EgressPolicy) (outside : Outside) :
    ℕ → ℕ → Request → List EgressDecision → List Call × Except EgressError EgressFetchResult
  | remaining, hop, request, decisions =>
    match authorizeEgress policy (outside.lookup hop) request.url with
    | .error e => ([], .error e)
    | .ok decision =>
      match pinnedFetch parser hop decision.pin request.url.href request.method request.headers
        request.body (outside.aborted hop) with
      | .error e => ([], .error e)
      | .ok call =>
        match outside.response hop with
        | none => ([call], .error .fetchFailed)
        | some response =>
          let returned : List Call × Except EgressError EgressFetchResult :=
            ([call],
              .ok
                { response
                  finalUrl := if call.url.href = [] then request.url.href else call.url.href
                  redirects := hop
                  decisions := decisions ++ [decision] })
          match remaining, response.location with
          | remaining + 1, some location =>
            if REDIRECT_STATUSES.contains response.status then
              match parser.parseWith location request.url with
              | none => returned
              | some next =>
                match redirected request response.status next with
                | none => ([call], .error .invalidHeaders)
                | some request =>
                  let (calls, result) :=
                    follow parser policy outside remaining (hop + 1) request (decisions ++ [decision])
                  (call :: calls, result)
            else returned
          | _, _ => returned

def egressFetch (parser : UrlParser) (outside : Outside) (target : JsString)
    (init : EgressRequestInit) (options : EgressFetchOptions) :
    List Call × Except EgressError EgressFetchResult :=
  match parser.parse target with
  | none => ([], .error .invalidUrl)
  | some url =>
    follow parser options.policy outside (options.maxRedirects.getD MAX_REDIRECT_HOPS) 0
      { url, method := toUpperCase (init.method.getD (js "GET")), body := init.body,
        headers := init.headers } []

/-! ### What a request that goes out has passed -/

def Allowed (policy : EgressPolicy) (a : ResolvedAddress) : Prop :=
  classifyAddress a.address = some .public_ ∨
    (policy.allowPrivate = true ∧
      (classifyAddress a.address = some .private_ ∨ classifyAddress a.address = some .loopback))

theorem refusedClass_eq_none_iff (policy : EgressPolicy) (a : ResolvedAddress) :
    refusedClass policy a = none ↔ Allowed policy a := by
  unfold refusedClass Allowed
  cases hclass : classifyAddress a.address with
  | none => simp [isNeverReachable, NEVER_REACHABLE]
  | some classification =>
    cases classification <;> simp [isNeverReachable, NEVER_REACHABLE]

/-- An approval: the target is http or https and no metadata endpoint, the pin is in the answer, and
the whole answer may be reached. -/
theorem authorizeEgress_ok {policy : EgressPolicy}
    {lookup : JsString → Option (List ResolvedAddress)} {url : Url} {decision : EgressDecision}
    (h : authorizeEgress policy lookup url = .ok decision) :
    url.isHttp ∧ FORBIDDEN_HOSTNAMES.contains (normalizeHost url.hostname) = false ∧
      ∃ pin answer, decision.pin = some pin ∧
      addressesOf lookup (normalizeHost url.hostname) = some answer ∧ pin ∈ answer ∧
      ∀ a ∈ answer, Allowed policy a := by
  unfold authorizeEgress at h
  split at h
  · cases h
  rename_i hhttp
  dsimp only at h
  split at h
  · cases h
  rename_i hforbidden
  split at h
  · cases h
  · cases h
  · rename_i first rest hanswer
    split at h
    · cases h
    · rename_i hnone
      cases h
      refine ⟨not_not.mp hhttp, Bool.eq_false_iff.mpr hforbidden, first, first :: rest, rfl,
        hanswer, List.mem_cons_self, fun a ha => ?_⟩
      exact (refusedClass_eq_none_iff policy a).mp (List.findSome?_eq_none_iff.mp hnone a ha)

theorem Allowed.not_neverReachable {policy : EgressPolicy} {a : ResolvedAddress}
    (h : Allowed policy a) : (classifyAddress a.address).any isNeverReachable = false := by
  rcases h with h | ⟨-, h | h⟩ <;> rw [h] <;> decide

/-- What validation forbids, execution refuses: a host that may never be a target is approved under
no policy and no answer of the resolver. -/
theorem authorizeEgress_of_forbidden {url : Url} (h : isForbiddenEgressHost url.hostname = true)
    (policy : EgressPolicy) (lookup : JsString → Option (List ResolvedAddress))
    (decision : EgressDecision) : authorizeEgress policy lookup url ≠ .ok decision := by
  intro hok
  obtain ⟨-, hhost, pin, answer, -, hanswer, -, hallowed⟩ := authorizeEgress_ok hok
  rcases Bool.or_eq_true _ _ ▸ h with hname | hclass
  · rw [hhost] at hname
    cases hname
  · cases hparsed : parseAddress (normalizeHost url.hostname) with
    | none => simp [classifyAddress, hparsed] at hclass
    | some literal =>
      have hliteral : answer = [⟨normalizeHost url.hostname, literal.family⟩] := by
        simpa [addressesOf, hparsed] using hanswer.symm
      have := (hallowed ⟨_, literal.family⟩ (hliteral ▸ List.mem_cons_self)).not_neverReachable
      rw [hclass] at this
      cases this

variable {call : Call}

theorem pinnedFetch_ok {parser : UrlParser} {hop : ℕ} {pin : Option ResolvedAddress}
    {target method : JsString} {headers : HeadersInit} {body : Option Body} {aborted : Bool}
    (h : pinnedFetch parser hop pin target method headers body aborted = .ok call) :
    call.hop = hop ∧ pin = some call.pin ∧ parser.parse target = some call.url ∧
      requestHeaders headers body = some call.headers := by
  unfold pinnedFetch at h
  split at h
  · cases h
  split at h
  · cases h
  rename_i url hurl
  unfold pinnedRequest at h
  split at h
  · cases h
  rename_i wire hwire
  split at h
  · cases h
  cases h
  exact ⟨rfl, rfl, hurl, hwire⟩

/-- The request that an iteration of the loop sends, if it gets so far. -/
structure Issued (parser : UrlParser) (policy : EgressPolicy) (outside : Outside) (hop : ℕ)
    (request : Request) (call : Call) : Prop where
  hop_eq : call.hop = hop
  url : parser.parse request.url.href = some call.url
  headers : requestHeaders request.headers request.body = some call.headers
  approved : ∃ decision, authorizeEgress policy (outside.lookup hop) request.url = .ok decision ∧
    decision.pin = some call.pin

/-- The requests of a loop with `remaining` redirects to go: an iteration sends nothing, sends one
request and returns, or sends one and follows the redirect. -/
inductive Trace (parser : UrlParser) (policy : EgressPolicy) (outside : Outside) :
    ℕ → ℕ → Request → List Call → Prop where
  | nothing {remaining hop : ℕ} {request : Request} :
    Trace parser policy outside remaining hop request []
  | last {remaining hop : ℕ} {request : Request} {call : Call}
    (issued : Issued parser policy outside hop request call) :
    Trace parser policy outside remaining hop request [call]
  | redirect {remaining hop status : ℕ} {request request' : Request} {call : Call}
    {calls : List Call} {location : JsString} {next : Url}
    (issued : Issued parser policy outside hop request call)
    (parsed : parser.parseWith location request.url = some next)
    (redirected : redirected request status next = some request')
    (rest : Trace parser policy outside remaining (hop + 1) request' calls) :
    Trace parser policy outside (remaining + 1) hop request (call :: calls)

theorem issued_of_pinnedFetch {parser : UrlParser} {policy : EgressPolicy} {outside : Outside}
    {hop : ℕ} {request : Request} {decision : EgressDecision}
    (hdecision : authorizeEgress policy (outside.lookup hop) request.url = .ok decision)
    (hcall : pinnedFetch parser hop decision.pin request.url.href request.method request.headers
      request.body (outside.aborted hop) = .ok call) :
    Issued parser policy outside hop request call := by
  obtain ⟨hhop, hpin, hurl, hheaders⟩ := pinnedFetch_ok hcall
  exact ⟨hhop, hurl, hheaders, decision, hdecision, hpin⟩

theorem follow_trace (parser : UrlParser) (policy : EgressPolicy) (outside : Outside)
    (remaining hop : ℕ) (request : Request) (decisions : List EgressDecision) :
    Trace parser policy outside remaining hop request
      (follow parser policy outside remaining hop request decisions).1 := by
  fun_induction follow parser policy outside remaining hop request decisions with
  | case1 => exact .nothing
  | case2 => exact .nothing
  | case3 _ _ _ _ _ hdecision _ hcall => exact .last (issued_of_pinnedFetch hdecision hcall)
  | case4 _ _ _ _ hdecision _ hcall => exact .last (issued_of_pinnedFetch hdecision hcall)
  | case5 _ _ _ _ hdecision _ hcall => exact .last (issued_of_pinnedFetch hdecision hcall)
  | case6 _ _ _ _ hdecision _ hcall _ _ _ _ _ _ _ hnext _ hredirected calls result heq ih =>
    rw [heq] at ih
    exact .redirect (issued_of_pinnedFetch hdecision hcall) hnext hredirected ih
  | case7 _ _ _ _ hdecision _ hcall => exact .last (issued_of_pinnedFetch hdecision hcall)
  | case8 _ _ _ _ _ hdecision _ hcall => exact .last (issued_of_pinnedFetch hdecision hcall)

/-! ### Headers that belong to an origin -/

def Unbound (init : HeadersInit) : Prop :=
  ∃ h, init = .headers h ∧ ∀ name ∈ ORIGIN_BOUND_HEADERS, name ∉ h.names

/-- A request that carries a header bound to an origin, in whatever case. -/
def Call.carriesBound (call : Call) : Prop :=
  ∃ e ∈ call.headers, byteLowercase e.1 ∈ ORIGIN_BOUND_HEADERS

theorem defaultNames_not_bound : ∀ name ∈ defaultNames,
    byteLowercase name ∉ ORIGIN_BOUND_HEADERS := by
  decide

theorem not_carriesBound_of_unbound {parser : UrlParser} {policy : EgressPolicy} {outside : Outside}
    {hop : ℕ} {request : Request} (hissued : Issued parser policy outside hop request call)
    (hunbound : Unbound request.headers) : ¬call.carriesBound := by
  rintro ⟨e, he, hbound⟩
  obtain ⟨h, hheaders, hnot⟩ := hunbound
  rcases mem_requestHeaders hissued.headers he with hdefault | ⟨h', hh', hname⟩
  · exact defaultNames_not_bound e.1 hdefault hbound
  · rw [hheaders] at hh'
    rw [lower_of_mem_names hname] at hbound
    exact hnot e.1 hbound (mem_names_copy hh' hname)

theorem mem_names_foldl_delete {names : List JsString} {h : Headers} {name : JsString}
    (hn : name ∈ (names.foldl Headers.delete h).names) :
    name ∈ h.names ∧ ∀ deleted ∈ names, name ≠ byteLowercase deleted := by
  induction names generalizing h with
  | nil => exact ⟨hn, by simp⟩
  | cons first rest ih =>
    obtain ⟨hin, hrest⟩ := ih hn
    obtain ⟨hh, hfirst⟩ := (mem_names_delete h first name).mp hin
    refine ⟨hh, fun deleted hdeleted => ?_⟩
    rcases List.mem_cons.mp hdeleted with rfl | hdeleted
    · exact hfirst
    · exact hrest deleted hdeleted

/-- The request for the next hop: its target, and names that the headers before it set; none of
them is bound once the origin changes. -/
theorem redirected_spec {request request' : Request} {status : ℕ} {next : Url}
    (h : redirected request status next = some request') :
    request'.url = next ∧ ∃ copied kept, newHeaders request.headers = some copied ∧
      request'.headers = .headers kept ∧ (∀ name ∈ kept.names, name ∈ copied.names) ∧
      (next.origin ≠ request.url.origin → ∀ name ∈ ORIGIN_BOUND_HEADERS, name ∉ kept.names) := by
  obtain ⟨copied, hcopied, rfl⟩ := Option.map_eq_some_iff.mp h
  set mutable := if next.origin ≠ request.url.origin then
    ORIGIN_BOUND_HEADERS.foldl Headers.delete copied else copied with hmutable
  have hsub : ∀ name ∈ mutable.names, name ∈ copied.names := by
    intro name hname
    rw [hmutable] at hname
    split at hname
    · exact (mem_names_foldl_delete hname).1
    · exact hname
  have hbound : next.origin ≠ request.url.origin →
      ∀ name ∈ ORIGIN_BOUND_HEADERS, name ∉ mutable.names := by
    intro hchanged name hname hin
    rw [hmutable, if_pos hchanged] at hin
    refine (mem_names_foldl_delete hin).2 name hname ?_
    have hlower : ∀ bound ∈ ORIGIN_BOUND_HEADERS, bound = byteLowercase bound := by decide
    exact hlower name hname
  dsimp only
  split
  · refine ⟨rfl, copied, _, hcopied, rfl, fun name hname => ?_, fun hchanged name hname hin => ?_⟩
    · exact hsub name ((mem_names_delete _ _ _).mp ((mem_names_delete _ _ _).mp hname).1).1
    · exact hbound hchanged name hname
        ((mem_names_delete _ _ _).mp ((mem_names_delete _ _ _).mp hin).1).1
  · exact ⟨rfl, copied, mutable, hcopied, rfl, hsub, hbound⟩

theorem Unbound.redirected {request request' : Request} {status : ℕ} {next : Url}
    (hunbound : Unbound request.headers) (h : redirected request status next = some request') :
    Unbound request'.headers := by
  obtain ⟨original, horiginal, hnot⟩ := hunbound
  obtain ⟨-, copied, kept, hcopied, hkept, hsub, -⟩ := redirected_spec h
  rw [horiginal] at hcopied
  refine ⟨kept, hkept, fun name hname hin => hnot name hname ?_⟩
  exact mem_names_copy hcopied (hsub name hin)

/-! ### The whole loop -/

/-- A request that is safe to have sent: for an http or https URL that was approved in its own
iteration, and pinned to one of the addresses that were approved there. -/
structure SafeCall (policy : EgressPolicy) (outside : Outside) (call : Call) : Prop where
  http : call.url.isHttp
  approved : ∃ decision, authorizeEgress policy (outside.lookup call.hop) call.url = .ok decision ∧
    decision.pin = some call.pin
  pinned : ∃ answer,
    addressesOf (outside.lookup call.hop) (normalizeHost call.url.hostname) = some answer ∧
    call.pin ∈ answer ∧ ∀ a ∈ answer, Allowed policy a

/-- Once a hop changed origin, no later request carries a header bound to an origin. -/
def DropsBound (calls : List Call) : Prop :=
  ∀ before a b after, calls = before ++ a :: b :: after → a.url.origin ≠ b.url.origin →
    ∀ c ∈ b :: after, ¬c.carriesBound

theorem Issued.safe {parser : UrlParser} {policy : EgressPolicy} {outside : Outside} {hop : ℕ}
    {request : Request} (h : Issued parser policy outside hop request call)
    (hreparse : request.url.isHttp → parser.parse request.url.href = some request.url) :
    call.url = request.url ∧ SafeCall policy outside call := by
  obtain ⟨decision, hdecision, hpin⟩ := h.approved
  obtain ⟨hhttp, -, pin, answer, hpin', hanswer, hmem, hallowed⟩ := authorizeEgress_ok hdecision
  obtain rfl := Option.some.inj (hpin.symm.trans hpin')
  have hurl : call.url = request.url := Option.some.inj (h.url.symm.trans (hreparse hhttp))
  rw [← hurl, ← h.hop_eq] at hdecision hanswer
  exact ⟨hurl, ⟨hurl ▸ hhttp, ⟨decision, hdecision, hpin⟩, ⟨answer, hanswer, hmem, hallowed⟩⟩⟩

section Loop

variable {parser : UrlParser} {policy : EgressPolicy} {outside : Outside} {remaining hop : ℕ}
  {request : Request} {calls : List Call}

theorem Trace.length_le (h : Trace parser policy outside remaining hop request calls) :
    calls.length ≤ remaining + 1 := by
  induction h with
  | nothing => simp
  | last issued => simp
  | redirect issued parsed redirected rest ih =>
    simp only [List.length_cons]
    omega

theorem Trace.hop_eq (h : Trace parser policy outside remaining hop request calls) {i : ℕ}
    {call : Call} (hi : calls[i]? = some call) : call.hop = hop + i := by
  induction h generalizing i with
  | nothing => cases hi
  | last issued =>
    cases i with
    | zero =>
      cases hi
      exact issued.hop_eq
    | succ i => cases hi
  | redirect issued parsed redirected rest ih =>
    cases i with
    | zero =>
      cases hi
      exact issued.hop_eq
    | succ i =>
      have := ih hi
      omega

theorem Trace.not_carriesBound (h : Trace parser policy outside remaining hop request calls)
    (hunbound : Unbound request.headers) : ∀ call ∈ calls, ¬call.carriesBound := by
  induction h with
  | nothing => simp
  | last issued =>
    intro c hc
    obtain rfl := List.mem_singleton.mp hc
    exact not_carriesBound_of_unbound issued hunbound
  | redirect issued parsed redirected rest ih =>
    intro c hc
    rcases List.mem_cons.mp hc with rfl | hc
    · exact not_carriesBound_of_unbound issued hunbound
    · exact ih (hunbound.redirected redirected) c hc

theorem Trace.head_url (h : Trace parser policy outside remaining hop request calls)
    (hurl : request.url.isHttp → parser.parse request.url.href = some request.url) {first : Call}
    {rest : List Call} (hcalls : calls = first :: rest) : first.url = request.url := by
  cases h with
  | nothing => cases hcalls
  | last issued | redirect issued parsed redirected rest =>
    obtain ⟨rfl, -⟩ := List.cons.inj hcalls
    exact (issued.safe hurl).1

variable (hreparse : parser.Reparses)
include hreparse

theorem Trace.safe (h : Trace parser policy outside remaining hop request calls)
    (hurl : request.url.isHttp → parser.parse request.url.href = some request.url) :
    ∀ call ∈ calls, SafeCall policy outside call := by
  induction h with
  | nothing => simp
  | last issued =>
    intro c hc
    obtain rfl := List.mem_singleton.mp hc
    exact (issued.safe hurl).2
  | redirect issued parsed redirected rest ih =>
    intro c hc
    rcases List.mem_cons.mp hc with rfl | hc
    · exact (issued.safe hurl).2
    · obtain ⟨hnext, -⟩ := redirected_spec redirected
      refine ih (fun hhttp => ?_) c hc
      rw [hnext] at hhttp ⊢
      exact hreparse.2 _ _ _ parsed hhttp

theorem Trace.dropsBound (h : Trace parser policy outside remaining hop request calls)
    (hurl : request.url.isHttp → parser.parse request.url.href = some request.url) :
    DropsBound calls := by
  induction h with
  | nothing => simp [DropsBound]
  | last issued =>
    intro before a b after hcalls
    have := congrArg List.length hcalls
    simp at this
    omega
  | @redirect remaining hop status request request' call calls location next issued parsed
      redirected rest ih =>
    obtain ⟨hnext, copied, kept, -, hkept, -, hbound⟩ := redirected_spec redirected
    have hurl' : request'.url.isHttp → parser.parse request'.url.href = some request'.url := by
      rw [hnext]
      exact hreparse.2 _ _ _ parsed
    intro before a b after hcalls hchanged
    cases before with
    | nil =>
      -- the origin changes right after this request
      obtain ⟨hcall, hrest⟩ := List.cons.inj hcalls
      have ha : a.url = request.url := hcall ▸ (issued.safe hurl).1
      have hb : b.url = request'.url := rest.head_url hurl' hrest
      rw [ha, hb, hnext] at hchanged
      rw [← hrest]
      exact rest.not_carriesBound ⟨kept, hkept, hbound hchanged.symm⟩
    | cons c before =>
      obtain ⟨-, hrest⟩ := List.cons.inj hcalls
      exact ih hurl' before a b after hrest hchanged

end Loop

/-- Whatever the target, the answers of the resolver and the responses: every request that the loop
sends is safe, the requests go out one an iteration and are at most one more than the redirects
allowed, and once a hop changed origin no later request carries a header bound to an origin. -/
theorem egressFetch_safe (parser : UrlParser) (hreparse : parser.Reparses) (outside : Outside)
    (target : JsString) (init : EgressRequestInit) (options : EgressFetchOptions) :
    let calls := (egressFetch parser outside target init options).1
    (∀ call ∈ calls, SafeCall options.policy outside call) ∧
    (∀ (i : ℕ) (call : Call), calls[i]? = some call → call.hop = i) ∧
    calls.length ≤ options.maxRedirects.getD MAX_REDIRECT_HOPS + 1 ∧
    DropsBound calls := by
  unfold egressFetch
  cases hparse : parser.parse target with
  | none => simp [DropsBound]
  | some url =>
    have htrace := follow_trace parser options.policy outside
      (options.maxRedirects.getD MAX_REDIRECT_HOPS) 0
      { url, method := toUpperCase (init.method.getD (js "GET")), body := init.body,
        headers := init.headers } []
    have hurl : url.isHttp → parser.parse url.href = some url := hreparse.1 _ _ hparse
    refine ⟨htrace.safe hreparse hurl, fun i call hi => ?_, htrace.length_le,
      htrace.dropsBound hreparse hurl⟩
    have := htrace.hop_eq hi
    omega

def urlA : Url where
  href := js "https://a.example/"
  protocol := js "https:"
  hostname := js "a.example"
  origin := js "https://a.example"
  port := []
  pathname := js "/"
  search := []

def urlB : Url where
  href := js "https://b.example/"
  protocol := js "https:"
  hostname := js "b.example"
  origin := js "https://b.example"
  port := []
  pathname := js "/"
  search := []

def twoUrls : UrlParser where
  parse input := [urlA, urlB].find? (·.href = input)
  parseWith input _ := [urlA, urlB].find? (·.href = input)

theorem twoUrls_reparses : twoUrls.Reparses := by
  have hfind : ∀ input url, [urlA, urlB].find? (·.href = input) = some url →
      [urlA, urlB].find? (·.href = url.href) = some url := by
    intro input url h
    obtain rfl : url.href = input := by simpa using List.find?_some h
    exact h
  exact ⟨fun input url h _ => hfind input url h, fun input _ url h _ => hfind input url h⟩

def thereAndBack : Outside where
  lookup _ _ := some [⟨js "93.184.216.34", 4⟩]
  aborted _ := false
  response
    | 0 => some ⟨302, some urlB.href⟩
    | 1 => some ⟨302, some urlA.href⟩
    | _ => some ⟨200, none⟩

def signedRequest : EgressRequestInit where
  method := none
  headers := .record [(js "Authorization", js "Bearer t"), (js "X-Trace", js "1")]
  body := none

def monitorOptions : EgressFetchOptions where
  policy := ⟨.monitor, false⟩
  maxRedirects := none

/-- The credential goes to A once, and not again when the chain comes back to A. -/
theorem egressFetch_safe_there_and_back :
    let calls := (egressFetch twoUrls thereAndBack urlA.href signedRequest monitorOptions).1
    calls.map (fun call => (call.url.hostname, call.headers.map (·.1))) =
      [(js "a.example",
          [js "accept", js "accept-encoding", js "authorization", js "x-trace"]),
        (js "b.example", [js "accept", js "accept-encoding", js "x-trace"]),
        (js "a.example", [js "accept", js "accept-encoding", js "x-trace"])] ∧
    (∀ call ∈ calls, SafeCall monitorOptions.policy thereAndBack call) ∧ DropsBound calls := by
  have h := egressFetch_safe twoUrls twoUrls_reparses thereAndBack urlA.href signedRequest
    monitorOptions
  exact ⟨by decide +kernel, h.1, h.2.2.2⟩

end Vigil.Net.Egress
