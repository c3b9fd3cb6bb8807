import Vigil.Js.ByteLength
import Vigil.Lib.Cut
import Vigil.Net.Address

/-! The tokens that the server signs and takes back: `status-pages/access.ts`, and the signature of a
webhook, `notifications/webhook.ts`.  The length of a token is compared in UTF-16 units, and the
comparison after it in bytes of UTF-8; it throws when the bytes differ in length. -/

namespace Vigil.Access.Tokens

open Js.Text Js.ByteLength
open Lib.Cut (lastIndexOf)

/-- What `timingSafeEqual` throws. -/
inductive RangeError where
  | inputBuffersMustHaveTheSameByteLength
  deriving DecidableEq

def timingSafeEqual (a b : List UInt8) : Except RangeError Bool :=
  if a.length ≠ b.length then .error .inputBuffersMustHaveTheSameByteLength else .ok (a = b)

/-- The comparison that all three functions end with. -/
def sameToken (expected token : JsString) : Except RangeError Bool :=
  if expected.length ≠ token.length then .ok false
  else timingSafeEqual (utf8 expected) (utf8 token)

section Tokens

-- `createHmac("sha256", key).update(data).digest("hex")`
variable (hmac : List UInt8 → List UInt8 → JsString)

def hexDigest (key data : JsString) : JsString := hmac (utf8 key) (utf8 data)

def signStatusPageUnlock (secret pageId : JsString) : JsString := hexDigest hmac secret pageId

/-- Does the token unlock the page? -/
def verifyStatusPageUnlock (secret pageId : JsString) (token : Option JsString) :
    Except RangeError Bool :=
  match token with
  | none => .ok false
  | some token =>
    if token = [] then .ok false
    else sameToken (signStatusPageUnlock hmac secret pageId) token

def subscriptionHmac (secret subscriberId : JsString) : JsString :=
  hexDigest hmac secret (js "subscribe:" ++ subscriberId)

def dot : UInt16 := 0x2E

def signSubscriptionToken (secret subscriberId : JsString) : JsString :=
  subscriberId ++ dot :: subscriptionHmac hmac secret subscriberId

/-- The subscriber whose token it is, if the signature after the last point is valid. -/
def verifySubscriptionToken (secret : JsString) (token : Option JsString) :
    Except RangeError (Option JsString) :=
  match token with
  | none => .ok none
  | some token =>
    if token = [] then .ok none
    else
      match lastIndexOf token dot (token.length - 1) with
      | none => .ok none
      | some 0 => .ok none
      | some (before + 1) => do
        let subscriberId := token.take (before + 1)
        let signature := token.drop (before + 1 + 1)
        let equal ← sameToken (subscriptionHmac hmac secret subscriberId) signature
        .ok (if equal then some subscriberId else none)

/-- `notifications/webhook.ts` -/
def signBody (secret body : JsString) : JsString := js "sha256=" ++ hexDigest hmac secret body

def verifySignature (secret body signature : JsString) : Except RangeError Bool :=
  sameToken (signBody hmac secret body) signature

/-- The digests are 64 lower-case hexadecimal digits. -/
structure HexDigest : Prop where
  length : ∀ key data, (hmac key data).length = 64
  digits : ∀ key data, ∀ c ∈ hmac key data, Net.Address.isLowerHex c = true

end Tokens

/-! ### The comparison -/

/-- As many units as were expected, and not all of them of ASCII. -/
def Wide (count : ℕ) (token : JsString) : Prop := token.length = count ∧ ¬token.all isAscii = true

variable {expected token : JsString}

theorem sameToken_ok (hascii : expected.all isAscii = true) (h : ¬Wide expected.length token) :
    sameToken expected token = .ok (decide (token = expected)) := by
  unfold sameToken
  split
  · rename_i hlength
    have hne : token ≠ expected := fun heq => hlength (by rw [heq])
    rw [decide_eq_false hne]
  · rename_i hlength
    have htoken : token.all isAscii = true := by
      by_contra hwide
      exact h ⟨(not_not.mp hlength).symm, hwide⟩
    have hbytes : (utf8 expected).length = (utf8 token).length :=
      ((byteLength_eq_length_iff expected).mpr hascii).trans
        ((not_not.mp hlength).trans ((byteLength_eq_length_iff token).mpr htoken).symm)
    rw [timingSafeEqual, if_neg (not_not.mpr hbytes)]
    refine congrArg Except.ok (decide_eq_decide.mpr ⟨fun heq => ?_, fun heq => by rw [heq]⟩)
    exact (utf8_inj (wellFormed_of_ascii hascii) (wellFormed_of_ascii htoken) heq).symm

theorem sameToken_error (hascii : expected.all isAscii = true) (h : Wide expected.length token) :
    sameToken expected token = .error .inputBuffersMustHaveTheSameByteLength := by
  have hbytes : (utf8 expected).length ≠ (utf8 token).length := by
    have hexpected := (byteLength_eq_length_iff expected).mpr hascii
    have htoken := mt (byteLength_eq_length_iff token).mp h.2
    have hlength := h.1
    unfold byteLength at hexpected htoken
    omega
  rw [sameToken, if_neg (not_not.mpr h.1.symm), timingSafeEqual, if_pos hbytes]

/-- The comparison returns whether the token is the expected one, when the token is not wide. -/
theorem sameToken_exact_iff (hascii : expected.all isAscii = true) :
    sameToken expected token = .ok (decide (token = expected)) ↔ ¬Wide expected.length token := by
  refine ⟨fun hok h => ?_, sameToken_ok hascii⟩
  rw [sameToken_error hascii h] at hok
  cases hok

/-! ### The last dot of a subscription token -/

theorem lastIndexOf_dot {subscriberId signature : JsString} (h : dot ∉ signature) :
    lastIndexOf (subscriberId ++ dot :: signature) dot
      ((subscriberId ++ dot :: signature).length - 1) = some subscriberId.length := by
  have hlength : (subscriberId ++ dot :: signature).length - 1 =
      subscriberId.length + signature.length := by
    rw [List.length_append, List.length_cons]
    omega
  have hlast := Lib.Cut.lastIndexOf_append (l := subscriberId) (r := []) h
  rw [hlength]
  rwa [List.append_nil] at hlast

theorem cut_unique {subscriberId subscriberId' signature signature' : JsString}
    (h : dot ∉ signature) (h' : dot ∉ signature')
    (heq : subscriberId ++ dot :: signature = subscriberId' ++ dot :: signature') :
    subscriberId = subscriberId' ∧ signature = signature' := by
  have hlast : lastIndexOf (subscriberId ++ dot :: signature) dot
      ((subscriberId ++ dot :: signature).length - 1) = some subscriberId.length :=
    lastIndexOf_dot h
  rw [heq, lastIndexOf_dot h'] at hlast
  obtain ⟨hid, hrest⟩ := List.append_inj heq (Option.some.inj hlast).symm
  exact ⟨hid, (List.cons.inj hrest).2⟩

variable (hmac : List UInt8 → List UInt8 → JsString) (secret : JsString)

theorem verifySubscriptionToken_cut {subscriberId signature : JsString} (hid : subscriberId ≠ [])
    (h : dot ∉ signature) :
    verifySubscriptionToken hmac secret (some (subscriberId ++ dot :: signature)) =
      (sameToken (subscriptionHmac hmac secret subscriberId) signature).map
        fun equal => if equal then some subscriberId else none := by
  have hnil : subscriberId ++ dot :: signature ≠ [] := List.append_ne_nil_of_left_ne_nil hid _
  obtain ⟨before, hbefore⟩ := Nat.exists_eq_add_one_of_ne_zero (mt List.length_eq_zero_iff.mp hid)
  have hdrop : (subscriberId ++ dot :: signature).drop (before + 1 + 1) = signature := by
    rw [← hbefore, List.drop_append]
    simp
  simp only [verifySubscriptionToken, if_neg hnil, lastIndexOf_dot h]
  rw [hbefore]
  simp only [hdrop]
  rw [← hbefore, List.take_left]
  cases sameToken (subscriptionHmac hmac secret subscriberId) signature <;> rfl

/-- A token is refused when no dot stands after its first unit. -/
theorem verifySubscriptionToken_uncut {token : Option JsString}
    (h : ∀ subscriberId signature, token = some (subscriberId ++ dot :: signature) →
      subscriberId ≠ [] → dot ∉ signature → False) :
    verifySubscriptionToken hmac secret token = .ok none := by
  cases token with
  | none => rfl
  | some token =>
    unfold verifySubscriptionToken
    simp only
    split
    · rfl
    · split
      · rfl
      · rfl
      · rename_i before hlast
        obtain ⟨-, hget, hafter⟩ := Lib.Cut.lastIndexOf_eq_some_iff.mp hlast
        obtain ⟨hlt, -⟩ := List.getElem?_eq_some_iff.mp hget
        refine absurd (congrArg some (Lib.Cut.lastIndexOf_cut hlast)) fun hcut =>
          h _ _ hcut (fun hnil => ?_) fun hmem => ?_
        · have htake := congrArg List.length hnil
          rw [List.length_take, List.length_nil] at htake
          omega
        · obtain ⟨k, hk, hdot⟩ := List.getElem_of_mem hmem
          rw [List.length_drop] at hk
          rw [List.getElem_drop] at hdot
          refine hafter (before + 1 + 1 + k) (by omega) (by omega) ?_
          rw [List.getElem?_eq_getElem (by omega), hdot]

/-! ### Which tokens are judged exactly -/

variable {hmac}

theorem HexDigest.ascii (h : HexDigest hmac) (key data : JsString) :
    (hexDigest hmac key data).all isAscii = true := by
  refine List.all_eq_true.mpr fun c hc => ?_
  have hdigit := h.digits _ _ c hc
  have hbounds : 0x30 ≤ c.toNat ∧ c.toNat ≤ 0x39 ∨ 0x61 ≤ c.toNat ∧ c.toNat ≤ 0x66 := by
    simpa [Net.Address.isLowerHex, Net.Address.isDigit, UInt16.le_iff_toNat_le] using hdigit
  rw [isAscii_iff]
  omega

theorem HexDigest.no_dot (h : HexDigest hmac) (key data : JsString) :
    dot ∉ hexDigest hmac key data :=
  fun hmem => absurd (h.digits _ _ dot hmem) (by decide)

theorem HexDigest.ne_nil (h : HexDigest hmac) (key data : JsString) :
    hexDigest hmac key data ≠ [] := by
  intro hnil
  have hlength := h.length (utf8 key) (utf8 data)
  unfold hexDigest at hnil
  rw [hnil] at hlength
  exact absurd hlength (by decide)

theorem unlock_exact_iff (h : HexDigest hmac) (pageId : JsString) (token : Option JsString) :
    verifyStatusPageUnlock hmac secret pageId token =
        .ok (decide (token = some (signStatusPageUnlock hmac secret pageId))) ↔
      ∀ text, token = some text → ¬Wide 64 text := by
  have hlength : (signStatusPageUnlock hmac secret pageId).length = 64 := h.length _ _
  cases token with
  | none => exact ⟨fun _ _ hnone => (by cases hnone), fun _ => rfl⟩
  | some token =>
    by_cases hnil : token = []
    · subst hnil
      have hne : ¬some [] = some (signStatusPageUnlock hmac secret pageId) :=
        fun heq => h.ne_nil secret pageId (Option.some.inj heq).symm
      refine ⟨fun _ text htext hwide => ?_, fun _ => by rw [decide_eq_false hne]; rfl⟩
      cases htext
      exact absurd hwide.1 (by decide)
    · have hverify : verifyStatusPageUnlock hmac secret pageId (some token) =
          sameToken (signStatusPageUnlock hmac secret pageId) token := if_neg hnil
      have hexact : sameToken (signStatusPageUnlock hmac secret pageId) token =
          .ok (decide (token = signStatusPageUnlock hmac secret pageId)) ↔ ¬Wide 64 token := by
        rw [← hlength]
        exact sameToken_exact_iff (h.ascii _ _)
      rw [hverify, decide_eq_decide.mpr (Option.some_inj (a := token)), hexact]
      exact ⟨fun hwide text htext => Option.some.inj htext ▸ hwide, fun hall => hall token rfl⟩

theorem signature_exact_iff (h : HexDigest hmac) (body signature : JsString) :
    verifySignature hmac secret body signature =
        .ok (decide (signature = signBody hmac secret body)) ↔ ¬Wide 71 signature := by
  have hascii : (signBody hmac secret body).all isAscii = true := by
    rw [signBody, List.all_append, h.ascii, Bool.and_true]
    decide
  have hlength : (signBody hmac secret body).length = 71 := by
    have hdigest : (hexDigest hmac secret body).length = 64 := h.length _ _
    rw [signBody, List.length_append, hdigest]
    rfl
  rw [← hlength]
  exact sameToken_exact_iff hascii

/-- A token that is taken back was signed for the subscriber, and every token that was signed for a
subscriber is taken back; nothing is thrown. -/
def SubscriptionExact (hmac : List UInt8 → List UInt8 → JsString) (secret : JsString)
    (token : Option JsString) : Prop :=
  (∃ found, verifySubscriptionToken hmac secret token = .ok found) ∧
    ∀ subscriberId, verifySubscriptionToken hmac secret token = .ok (some subscriberId) ↔
      subscriberId ≠ [] ∧ token = some (signSubscriptionToken hmac secret subscriberId)

theorem subscription_exact_iff (h : HexDigest hmac) (token : Option JsString) :
    SubscriptionExact hmac secret token ↔
      ∀ subscriberId signature, token = some (subscriberId ++ dot :: signature) →
        subscriberId ≠ [] → dot ∉ signature → ¬Wide 64 signature := by
  have hlength : ∀ subscriberId, (subscriptionHmac hmac secret subscriberId).length = 64 :=
    fun _ => h.length _ _
  have hascii : ∀ subscriberId, (subscriptionHmac hmac secret subscriberId).all isAscii = true :=
    fun _ => h.ascii _ _
  by_cases hcut : ∀ subscriberId signature, token = some (subscriberId ++ dot :: signature) →
      subscriberId ≠ [] → dot ∉ signature → False
  · have hnone := verifySubscriptionToken_uncut hmac secret hcut
    refine ⟨fun _ id signature htoken hid hdot => (hcut id signature htoken hid hdot).elim,
      fun _ => ⟨⟨none, hnone⟩, fun subscriberId => ?_⟩⟩
    rw [hnone]
    exact ⟨fun hok => (by cases hok),
      fun ⟨hid, htoken⟩ => (hcut subscriberId _ htoken hid (h.no_dot _ _)).elim⟩
  · push Not at hcut
    obtain ⟨subscriberId, signature, rfl, hid, hdot, -⟩ := hcut
    have hverify := verifySubscriptionToken_cut hmac secret hid hdot
    constructor
    · rintro ⟨⟨found, hfound⟩, -⟩ id' signature' htoken hid' hdot' hwide
      obtain ⟨rfl, rfl⟩ := cut_unique hdot hdot' (Option.some.inj htoken)
      rw [hverify, sameToken_error (hascii _) (by rw [hlength]; exact hwide)] at hfound
      cases hfound
    · intro hall
      have hwide := hall subscriberId signature rfl hid hdot
      rw [sameToken_ok (hascii _) (by rw [hlength]; exact hwide)] at hverify
      refine ⟨⟨_, hverify⟩, fun id' => ?_⟩
      rw [hverify]
      constructor
      · intro hok
        have hfound := Except.ok.inj hok
        by_cases hsame : signature = subscriptionHmac hmac secret subscriberId
        · rw [decide_eq_true hsame] at hfound
          cases hfound
          exact ⟨hid, by rw [hsame]; rfl⟩
        · rw [decide_eq_false hsame] at hfound
          cases hfound
      · rintro ⟨hid', htoken⟩
        obtain ⟨rfl, hsame⟩ := cut_unique hdot (h.no_dot _ _) (Option.some.inj htoken)
        have hsame : signature = subscriptionHmac hmac secret subscriberId := hsame
        rw [decide_eq_true hsame]
        rfl

/-- The three functions return, and judge exactly, unless what they compare with a digest has its
length and is not ASCII. -/
theorem verification_exact_iff (h : HexDigest hmac) (pageId body signature : JsString)
    (token : Option JsString) :
    (SubscriptionExact hmac secret token ↔
      ∀ subscriberId signature, token = some (subscriberId ++ dot :: signature) →
        subscriberId ≠ [] → dot ∉ signature → ¬Wide 64 signature) ∧
    (verifyStatusPageUnlock hmac secret pageId token =
        .ok (decide (token = some (signStatusPageUnlock hmac secret pageId))) ↔
      ∀ text, token = some text → ¬Wide 64 text) ∧
    (verifySignature hmac secret body signature =
        .ok (decide (signature = signBody hmac secret body)) ↔ ¬Wide 71 signature) :=
  ⟨subscription_exact_iff secret h token, unlock_exact_iff secret h pageId token,
    signature_exact_iff secret h body signature⟩

/-- The digest of `subscribe:7` under the key `secret`. -/
def sampleDigest : JsString :=
  js "5fcbdc7dd903c16390a2e735114ddabb9783edbebccc666dafa00b11c9b65364"

theorem verification_exact_sample :
    (SubscriptionExact (fun _ _ => sampleDigest) (js "secret") (some (js "7." ++ sampleDigest)) ↔
      ∀ subscriberId signature,
        some (js "7." ++ sampleDigest) = some (subscriberId ++ dot :: signature) →
          subscriberId ≠ [] → dot ∉ signature → ¬Wide 64 signature) ∧
    (verifyStatusPageUnlock (fun _ _ => sampleDigest) (js "secret") (js "subscribe:7")
        (some (js "7." ++ sampleDigest)) =
        .ok (decide (some (js "7." ++ sampleDigest) =
          some (signStatusPageUnlock (fun _ _ => sampleDigest) (js "secret") (js "subscribe:7")))) ↔
      ∀ text, some (js "7." ++ sampleDigest) = some text → ¬Wide 64 text) ∧
    (verifySignature (fun _ _ => sampleDigest) (js "secret") (js "subscribe:7") sampleDigest =
        .ok (decide (sampleDigest =
          signBody (fun _ _ => sampleDigest) (js "secret") (js "subscribe:7"))) ↔
      ¬Wide 71 sampleDigest) :=
  verification_exact_iff (js "secret") ⟨fun _ _ => by decide, fun _ _ => List.all_eq_true.mp (by decide)⟩
    _ _ _ _

/-- Sixty-four units that are not ASCII. -/
def accented : JsString := List.replicate 64 0x00E9

theorem accented_is_not_judged :
    ¬∀ (hmac : List UInt8 → List UInt8 → JsString), HexDigest hmac →
      ∀ (secret pageId body signature : JsString) (token : Option JsString),
        SubscriptionExact hmac secret token ∧
        verifyStatusPageUnlock hmac secret pageId token =
          .ok (decide (token = some (signStatusPageUnlock hmac secret pageId))) ∧
        verifySignature hmac secret body signature =
          .ok (decide (signature = signBody hmac secret body)) := by
  intro hclaim
  have hdigest : HexDigest fun _ _ => sampleDigest :=
    ⟨fun _ _ => by decide, fun _ _ => List.all_eq_true.mp (by decide)⟩
  have hunlock := (hclaim _ hdigest (js "secret") (js "7") [] [] (some accented)).2.1
  exact (unlock_exact_iff (js "secret") hdigest (js "7") (some accented)).mp hunlock accented rfl
    ⟨by decide, by decide⟩

end Vigil.Access.Tokens
