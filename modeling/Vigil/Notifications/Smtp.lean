import Vigil.Js.Base64
import Vigil.Js.UtcString
import Vigil.Js.Utf8
import Vigil.Lib.Terminated
import Vigil.Monitors.Push
import Vigil.Net.Address

/-! `notifications/providers/smtp-client.ts`: the message, and what `smtpSend` does one thing after
another.  Every text that is written is made of lines. -/

namespace Vigil.Notifications.Smtp

open Js.Text Js.Utf8 Js.Base64 Js.UtcString Lib.Terminated
open Net.Address (join)
open Monitors.Push (trim)

def cr : UInt16 := 0x0D

def lf : UInt16 := 0x0A

def CRLF : JsString := [cr, lf]

/-- `\p{Cc}` -/
def isControl (c : UInt16) : Bool := c < 0x20 || (0x7F ≤ c && c ≤ 0x9F)

/-- A mail to send. -/
structure SmtpMail where
  from_ : JsString
  to_ : List JsString
  subject : JsString
  text : JsString
  messageId : JsString

/-- The first match of `/<([^<>]+)>/`. -/
def angleAddress : JsString → Option JsString
  | [] => none
  | c :: rest =>
    let inner := rest.takeWhile fun d => d ≠ 0x3C && d ≠ 0x3E
    if c = 0x3C ∧ inner ≠ [] ∧ (rest.drop inner.length).head? = some 0x3E then some inner
    else angleAddress rest

def envelopeAddress (value : JsString) : JsString :=
  trim (((angleAddress value).getD value).filter fun c => !isControl c)

/-- `/^[\x20-\x7e]*$/` -/
def isPrintable (value : JsString) : Bool := value.all fun c => 0x20 ≤ c && c ≤ 0x7E

def encodeSubject (value : JsString) : JsString :=
  if isPrintable value then value
  else js "=?UTF-8?B?" ++ (base64 (utf8 value) ++ js "?=")

/-- `.replace(/(.{76})/g, "$1\r\n")`, on a text without line terminators. -/
def foldLines (text : JsString) : JsString :=
  if 76 ≤ text.length then text.take 76 ++ (CRLF ++ foldLines (text.drop 76)) else text
termination_by text.length
decreasing_by
  rw [List.length_drop]
  omega

/-- `buildMime`; the date is a number of milliseconds. -/
def buildMime (mail : SmtpMail) (date : ℤ) : JsString :=
  let body := foldLines (base64 (utf8 mail.text))
  join [
    js "From: " ++ mail.from_,
    js "To: " ++ join mail.to_ (js ", "),
    js "Subject: " ++ encodeSubject mail.subject,
    js "Date: " ++ toUTCString date,
    js "Message-ID: <" ++ mail.messageId ++ js "@vigil>",
    js "MIME-Version: 1.0",
    js "Content-Type: text/plain; charset=utf-8",
    js "Content-Transfer-Encoding: base64",
    [],
    body] CRLF

/-! ### The conversation -/

/-- How the connection is secured. -/
inductive Security where
  | none
  | starttls
  | tls
  deriving DecidableEq, Repr

structure SmtpSendOptions where
  security : Security
  username : Option JsString
  password : Option JsString

/-- One thing that `smtpSend` does. -/
inductive Instruction where
  | expect (codes : List ℕ)
  | command (line : JsString) (codes : List ℕ)
  | write (data : JsString)
  /-- The upgrade of the socket, and the conversation over the upgraded one. -/
  | upgradeToTls
  /-- `throw new SmtpError(message, true)` -/
  | refuse (message : JsString)

def greet : Instruction := .command (js "EHLO vigil.invalid") [250]

def startTls (options : SmtpSendOptions) : List Instruction :=
  if options.security = .starttls then [.command (js "STARTTLS") [220], .upgradeToTls, greet] else []

/-- The text before the second `:` and after it stand between NUL characters. -/
def plainToken (username : JsString) (password : Option JsString) : JsString :=
  base64 (utf8 (0 :: (username ++ 0 :: password.getD [])))

def authenticate (options : SmtpSendOptions) : List Instruction :=
  match options.username with
  | none => []
  | some username =>
    if username = [] then []
    else if options.security = .none then
      [.refuse (js "Refusing to authenticate without TLS. Use STARTTLS or TLS.")]
    else [.command (js "AUTH PLAIN " ++ plainToken username options.password) [235]]

def mailData (mail : SmtpMail) (date : ℤ) : JsString :=
  buildMime mail date ++ (CRLF ++ (js "." ++ CRLF))

/-- `smtpSend` -/
def smtpSend (options : SmtpSendOptions) (mail : SmtpMail) (date : ℤ) :
    List Instruction :=
  [.expect [220], greet] ++ startTls options ++ authenticate options ++
    [.command (js "MAIL FROM:<" ++ envelopeAddress mail.from_ ++ js ">") [250]] ++
    mail.to_.map (fun recipient =>
      .command (js "RCPT TO:<" ++ envelopeAddress recipient ++ js ">") [250, 251]) ++
    [.command (js "DATA") [354], .write (mailData mail date), .expect [250],
      .write (js "QUIT" ++ CRLF)]

/-- What an instruction writes to the socket. -/
def Instruction.written : Instruction → Option JsString
  | .command line _ => some (line ++ CRLF)
  | .write data => some data
  | _ => none

/-! ### Lines -/

/-- No line ends in the text. -/
def OneLine (text : JsString) : Prop := cr ∉ text ∧ lf ∉ text

theorem OneLine.append {s t : JsString} (hs : OneLine s) (ht : OneLine t) : OneLine (s ++ t) :=
  ⟨fun h => (List.mem_append.mp h).elim hs.1 ht.1, fun h => (List.mem_append.mp h).elim hs.2 ht.2⟩

variable {text : JsString} {mail : SmtpMail}

theorem OneLine.of_all {p : UInt16 → Bool} (h : ∀ c ∈ text, p c = true) (hcr : p cr = false)
    (hlf : p lf = false) : OneLine text := by
  constructor
  · intro hmem
    rw [h cr hmem] at hcr
    cases hcr
  · intro hmem
    rw [h lf hmem] at hlf
    cases hlf

theorem noControl_of_all (h : text.all (fun c => !isControl c) = true) :
    ∀ c ∈ text, isControl c = false := by
  simpa using h

theorem OneLine.of_noControl (h : ∀ c ∈ text, isControl c = false) : OneLine text :=
  .of_all (p := fun c => !isControl c) (fun c hc => by rw [h c hc]; rfl) rfl rfl

theorem oneLine_base64 (bytes : List UInt8) : OneLine (base64 bytes) :=
  .of_all (List.all_eq_true.mp (all_isBase64 bytes)) rfl rfl

theorem oneLine_toUTCString (date : ℤ) : OneLine (toUTCString date) :=
  .of_all (p := fun c => 0x20 ≤ c && c ≤ 0x7E)
    (fun c hc => by simpa using toUTCString_printable date c hc) rfl rfl

theorem join_cons_cons (part next : JsString) (parts : List JsString) (separator : JsString) :
    join (part :: next :: parts) separator = part ++ (separator ++ join (next :: parts) separator) := by
  simp [join]

theorem oneLine_join {separator : JsString} (hseparator : OneLine separator) :
    ∀ {parts : List JsString}, (∀ part ∈ parts, OneLine part) → OneLine (join parts separator)
  | [], _ => ⟨List.not_mem_nil, List.not_mem_nil⟩
  | [part], h => by
    have hpart := h part List.mem_cons_self
    simpa [join] using hpart
  | part :: next :: parts, h => by
    rw [join_cons_cons]
    exact .append (h part List.mem_cons_self)
      (.append hseparator (oneLine_join hseparator fun p hp => h p (List.mem_cons_of_mem _ hp)))

theorem oneLine_encodeSubject (value : JsString) : OneLine (encodeSubject value) := by
  unfold encodeSubject
  split
  · rename_i hprintable
    exact .of_all (List.all_eq_true.mp hprintable) rfl rfl
  · exact .append ⟨by decide, by decide⟩ (.append (oneLine_base64 _) ⟨by decide, by decide⟩)

theorem mem_trim {c : UInt16} {s : JsString} (h : c ∈ trim s) : c ∈ s := by
  unfold trim at h
  exact (List.dropWhile_sublist _).subset ((List.rdropWhile_prefix _ _).subset h)

/-- Nothing that is a control character is left in an address. -/
theorem oneLine_envelopeAddress (value : JsString) : OneLine (envelopeAddress value) :=
  .of_noControl fun c hc => by
    have hfilter := List.of_mem_filter (mem_trim hc)
    simpa using hfilter

/-! ### The lines of the message -/

theorem join_crlf : ∀ {lines : List JsString}, lines ≠ [] →
    join lines CRLF ++ CRLF = ended cr lf lines
  | [], h => absurd rfl h
  | [line], _ => by simp [join, CRLF, ended]
  | line :: next :: lines, _ => by
    rw [join_cons_cons, List.append_assoc, List.append_assoc, join_crlf (List.cons_ne_nil _ _),
      ended_cons line]
    rfl

/-- The lines of a folded text: of 76 units, and a shorter one, perhaps empty, at the end. -/
def foldedLines (text : JsString) : List JsString :=
  if 76 ≤ text.length then text.take 76 :: foldedLines (text.drop 76) else [text]
termination_by text.length
decreasing_by
  rw [List.length_drop]
  omega

theorem foldedLines_spec (text : JsString) :
    foldLines text ++ CRLF = ended cr lf (foldedLines text) ∧ (foldedLines text).flatten = text ∧
      (∀ line ∈ foldedLines text, line.length ≤ 76 ∧ ∀ c ∈ line, c ∈ text) := by
  induction text using foldLines.induct with
  | case1 text hlong ih =>
    obtain ⟨hended, hflatten, hlines⟩ := ih
    rw [foldLines, foldedLines, if_pos hlong, if_pos hlong]
    refine ⟨?_, ?_, ?_⟩
    · rw [List.append_assoc, List.append_assoc, hended, ended_cons]
      rfl
    · rw [List.flatten_cons, hflatten, List.take_append_drop]
    · intro line hline
      rcases List.mem_cons.mp hline with rfl | hline
      · rw [List.length_take]
        exact ⟨min_le_left _ _, fun c hc => List.mem_of_mem_take hc⟩
      · exact ⟨(hlines line hline).1, fun c hc => List.mem_of_mem_drop ((hlines line hline).2 c hc)⟩
  | case2 text hshort =>
    rw [foldLines, foldedLines, if_neg hshort, if_neg hshort]
    refine ⟨by simp [ended, CRLF], by simp, ?_⟩
    intro line hline
    obtain rfl := List.mem_singleton.mp hline
    exact ⟨by omega, fun c hc => hc⟩

/-- The eight header lines of a message. -/
def headerLines (mail : SmtpMail) (date : ℤ) : List JsString :=
  [js "From: " ++ mail.from_, js "To: " ++ join mail.to_ (js ", "),
    js "Subject: " ++ encodeSubject mail.subject, js "Date: " ++ toUTCString date,
    js "Message-ID: <" ++ mail.messageId ++ js "@vigil>", js "MIME-Version: 1.0",
    js "Content-Type: text/plain; charset=utf-8", js "Content-Transfer-Encoding: base64"]

def bodyLines (mail : SmtpMail) : List JsString := foldedLines (base64 (utf8 mail.text))

theorem mailData_eq (mail : SmtpMail) (date : ℤ) :
    mailData mail date =
      ended cr lf (headerLines mail date ++ ([[]] ++ (bodyLines mail ++ [js "."]))) := by
  obtain ⟨hended, -, -⟩ := foldedLines_spec (base64 (utf8 mail.text))
  have hdot : js "." ++ CRLF = ended cr lf [js "."] := rfl
  have hmime : buildMime mail date ++ CRLF =
      ended cr lf (headerLines mail date ++ [[], foldLines (base64 (utf8 mail.text))]) :=
    join_crlf (List.cons_ne_nil _ _)
  have hlast : ended cr lf [[], foldLines (base64 (utf8 mail.text))] =
      ended cr lf [[]] ++ (foldLines (base64 (utf8 mail.text)) ++ CRLF) := by
    simp [ended, CRLF]
  rw [mailData, ← List.append_assoc, hmime, hdot, ended_append, hlast, hended, ended_append,
    ended_append, ended_append, bodyLines]
  simp only [List.append_assoc]

/-- A mail whose addresses and identifier have no control characters. -/
structure Clean (mail : SmtpMail) : Prop where
  from_ : ∀ c ∈ mail.from_, isControl c = false
  to_ : ∀ recipient ∈ mail.to_, ∀ c ∈ recipient, isControl c = false
  messageId : ∀ c ∈ mail.messageId, isControl c = false

theorem Clean.headerLines (h : Clean mail) (date : ℤ) :
    ∀ line ∈ headerLines mail date, OneLine line ∧ 2 ≤ line.length := by
  have hto : OneLine (join mail.to_ (js ", ")) :=
    oneLine_join ⟨by decide, by decide⟩ fun recipient hrecipient =>
      .of_noControl (h.to_ recipient hrecipient)
  have hlabel : ∀ {label value : JsString}, OneLine label → 2 ≤ label.length → OneLine value →
      OneLine (label ++ value) ∧ 2 ≤ (label ++ value).length := by
    intro label value hone hlength hvalue
    refine ⟨hone.append hvalue, ?_⟩
    rw [List.length_append]
    omega
  intro line hline
  simp only [Smtp.headerLines, List.mem_cons, List.not_mem_nil, or_false] at hline
  rcases hline with rfl | rfl | rfl | rfl | rfl | rfl | rfl | rfl
  · exact hlabel ⟨by decide, by decide⟩ (by decide) (.of_noControl h.from_)
  · exact hlabel ⟨by decide, by decide⟩ (by decide) hto
  · exact hlabel ⟨by decide, by decide⟩ (by decide) (oneLine_encodeSubject _)
  · exact hlabel ⟨by decide, by decide⟩ (by decide) (oneLine_toUTCString date)
  · rw [List.append_assoc]
    exact hlabel ⟨by decide, by decide⟩ (by decide)
      (.append (.of_noControl h.messageId) ⟨by decide, by decide⟩)
  · exact ⟨⟨by decide, by decide⟩, by decide⟩
  · exact ⟨⟨by decide, by decide⟩, by decide⟩
  · exact ⟨⟨by decide, by decide⟩, by decide⟩

/-- A body line is base64 of at most 76 units, so it is not a dot. -/
theorem bodyLines_spec (mail : SmtpMail) :
    (∀ line ∈ bodyLines mail, line.length ≤ 76 ∧ line.all isBase64 = true) ∧
      fromBase64 (bodyLines mail).flatten = some (utf8 mail.text) := by
  obtain ⟨-, hflatten, hlines⟩ := foldedLines_spec (base64 (utf8 mail.text))
  refine ⟨fun line hline => ⟨(hlines line hline).1, List.all_eq_true.mpr fun c hc => ?_⟩, ?_⟩
  · exact List.all_eq_true.mp (all_isBase64 (utf8 mail.text)) c ((hlines line hline).2 c hc)
  · rw [bodyLines, hflatten, fromBase64_base64]

theorem mem_bodyLines {line : JsString} (h : line ∈ bodyLines mail) :
    OneLine line ∧ line ≠ js "." := by
  have hall := ((bodyLines_spec mail).1 line h).2
  refine ⟨.of_all (List.all_eq_true.mp hall) rfl rfl, ?_⟩
  rintro rfl
  exact absurd hall (by decide)

/-- The end of the data stands at the end of what is written and nowhere before. -/
theorem Clean.terminator {date : ℤ} (h : Clean mail) {before after : JsString}
    (heq : mailData mail date = before ++ (CRLF ++ (js "." ++ CRLF)) ++ after) : after = [] := by
  have hlines : ∀ line ∈ Smtp.headerLines mail date ++ ([[]] ++ (bodyLines mail ++ [js "."])),
      cr ∉ line := by
    intro line hline
    simp only [List.mem_append, List.mem_singleton] at hline
    rcases hline with hline | rfl | hline | rfl
    · exact (h.headerLines date line hline).1.1
    · exact List.not_mem_nil
    · exact (mem_bodyLines hline).1.1
    · decide
  have hcut : ended cr lf (Smtp.headerLines mail date ++ ([[]] ++ (bodyLines mail ++ [js "."]))) =
      before ++ cr :: lf :: (js "." ++ cr :: lf :: after) := by
    rw [← mailData_eq, heq, List.append_assoc]
    rfl
  obtain ⟨first, rest, hsplit, -, rfl⟩ := cut_line (by decide) hlines (js ".") (by decide) hcut
  -- The dot that was found is the last line, as no line before the last is a dot.
  have hother : js "." ∉ Smtp.headerLines mail date ++ ([[]] ++ bodyLines mail) := by
    intro hmem
    simp only [List.mem_append, List.mem_singleton] at hmem
    rcases hmem with hmem | hmem | hmem
    · exact absurd (h.headerLines date _ hmem).2 (by decide)
    · exact absurd hmem (by decide)
    · exact (mem_bodyLines hmem).2 rfl
  rw [← List.append_assoc, ← List.append_assoc, List.append_assoc (Smtp.headerLines mail date)]
    at hsplit
  cases rest using List.reverseRecOn with
  | nil => rfl
  | append_singleton rest last =>
    rw [← List.cons_append, ← List.append_assoc first] at hsplit
    obtain ⟨hinit, -⟩ := List.append_inj' hsplit rfl
    exact absurd (hinit ▸ List.mem_append_right _ List.mem_cons_self) hother

/-- What the data of a mail has to be. -/
structure Framed (mail : SmtpMail) (data : JsString) : Prop where
  /-- Eight header lines, an empty line, the body and a dot. -/
  lines : ∃ headers body, data = ended cr lf (headers ++ [] :: (body ++ [js "."])) ∧
    headers.length = 8 ∧ (∀ line ∈ headers, OneLine line ∧ line ≠ []) ∧
    (∀ line ∈ body, line.length ≤ 76 ∧ line.all isBase64 = true) ∧
    (fromBase64 body.flatten).map decodeUtf8 = some mail.text ∧
    fromBase64 body.flatten = some (utf8 mail.text) ∧
    ∃ word, headers[2]? = some (js "Subject: " ++ word) ∧
      if isPrintable mail.subject then word = mail.subject
      else ∃ encoded, word = js "=?UTF-8?B?" ++ (encoded ++ js "?=") ∧
        (fromBase64 encoded).map decodeUtf8 = some mail.subject
  ends : ∃ before, data = before ++ (CRLF ++ (js "." ++ CRLF))
  once : ∀ before after, data = before ++ (CRLF ++ (js "." ++ CRLF)) ++ after → after = []

theorem subject_word {subject : JsString} (h : WellFormed subject) :
    if isPrintable subject then encodeSubject subject = subject
    else ∃ encoded, encodeSubject subject = js "=?UTF-8?B?" ++ (encoded ++ js "?=") ∧
      (fromBase64 encoded).map decodeUtf8 = some subject := by
  split
  · rename_i hprintable
    rw [encodeSubject, if_pos hprintable]
  · rename_i hprintable
    refine ⟨base64 (utf8 subject), ?_, ?_⟩
    · rw [encodeSubject, if_neg hprintable]
    · rw [fromBase64_base64, Option.map_some, decodeUtf8_utf8 h]

theorem Clean.framed (h : Clean mail) (hsubject : WellFormed mail.subject)
    (htext : WellFormed mail.text) (date : ℤ) : Framed mail (mailData mail date) where
  lines := by
    obtain ⟨hbody, hdecode⟩ := bodyLines_spec mail
    refine ⟨Smtp.headerLines mail date, bodyLines mail, mailData_eq mail date, rfl, ?_, hbody, ?_,
      hdecode, encodeSubject mail.subject, rfl, subject_word hsubject⟩
    · intro line hline
      refine ⟨(h.headerLines date line hline).1, ?_⟩
      rintro rfl
      exact absurd (h.headerLines date _ hline).2 (by decide)
    · rw [hdecode, Option.map_some, decodeUtf8_utf8 htext]
  ends := ⟨buildMime mail date, rfl⟩
  once _ _ heq := h.terminator heq

/-! ### What is written -/

def startTlsLines (options : SmtpSendOptions) : List JsString :=
  if options.security = .starttls then [js "STARTTLS", js "EHLO vigil.invalid"] else []

def loginLines (options : SmtpSendOptions) : List JsString :=
  match options.username with
  | none => []
  | some username =>
    if username = [] ∨ options.security = .none then []
    else [js "AUTH PLAIN " ++ plainToken username options.password]

/-- The commands before the data, without their ends. -/
def commandLines (options : SmtpSendOptions) (mail : SmtpMail) : List JsString :=
  [js "EHLO vigil.invalid"] ++ startTlsLines options ++ loginLines options ++
    [js "MAIL FROM:<" ++ envelopeAddress mail.from_ ++ js ">"] ++
    mail.to_.map (fun recipient => js "RCPT TO:<" ++ envelopeAddress recipient ++ js ">") ++
    [js "DATA"]

/-- What the instructions write: the commands, each with its end, the data and the farewell. -/
def writes (options : SmtpSendOptions) (mail : SmtpMail) (date : ℤ) : List JsString :=
  (commandLines options mail).map (· ++ CRLF) ++ [mailData mail date, js "QUIT" ++ CRLF]

variable (options : SmtpSendOptions)

theorem written_startTls :
    (startTls options).filterMap Instruction.written = (startTlsLines options).map (· ++ CRLF) := by
  unfold startTls startTlsLines
  split <;> rfl

theorem written_authenticate :
    (authenticate options).filterMap Instruction.written = (loginLines options).map (· ++ CRLF) := by
  unfold authenticate loginLines
  cases options.username with
  | none => rfl
  | some username =>
    by_cases hempty : username = []
    · simp [hempty]
    · by_cases hsecurity : options.security = .none
      · simp [hempty, hsecurity, Instruction.written]
      · simp [hempty, hsecurity, Instruction.written]

theorem written_smtpSend (mail : SmtpMail) (date : ℤ) :
    (smtpSend options mail date).filterMap Instruction.written = writes options mail date := by
  have hrecipients : (mail.to_.map fun recipient =>
        Instruction.command (js "RCPT TO:<" ++ envelopeAddress recipient ++ js ">") [250, 251]).filterMap
          Instruction.written =
      (mail.to_.map fun recipient => js "RCPT TO:<" ++ envelopeAddress recipient ++ js ">").map
        (· ++ CRLF) := by
    rw [List.filterMap_map, List.map_map, ← List.filterMap_eq_map]
    rfl
  rw [smtpSend, writes, commandLines]
  simp only [List.filterMap_append, List.map_append, written_startTls, written_authenticate,
    hrecipients]
  simp only [List.append_assoc]
  rfl

theorem oneLine_commandLines (mail : SmtpMail) :
    ∀ line ∈ commandLines options mail, OneLine line := by
  have haddress {label value : JsString} (hlabel : OneLine label) :
      OneLine (label ++ envelopeAddress value ++ js ">") :=
    .append (.append hlabel (oneLine_envelopeAddress value)) ⟨by decide, by decide⟩
  intro line hline
  simp only [commandLines, List.mem_append, List.mem_singleton, List.mem_map] at hline
  rcases hline with ((((rfl | hline) | hline) | rfl) | ⟨recipient, -, rfl⟩) | rfl
  · exact ⟨by decide, by decide⟩
  · unfold startTlsLines at hline
    split at hline
    · rcases List.mem_cons.mp hline with rfl | hline
      · exact ⟨by decide, by decide⟩
      · obtain rfl := List.mem_singleton.mp hline
        exact ⟨by decide, by decide⟩
    · cases hline
  · unfold loginLines at hline
    split at hline
    · cases hline
    · split at hline
      · cases hline
      · obtain rfl := List.mem_singleton.mp hline
        exact .append ⟨by decide, by decide⟩ (oneLine_base64 _)
  · exact haddress ⟨by decide, by decide⟩
  · exact haddress ⟨by decide, by decide⟩
  · exact ⟨by decide, by decide⟩

end Vigil.Notifications.Smtp
