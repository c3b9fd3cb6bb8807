import Vigil.Js.ByteLength
import Vigil.Lib.Cut
import Vigil.Lib.Dialogue
import Vigil.Lib.Entries
import Vigil.Notifications.Redaction
import Vigil.Notifications.SmtpConversation

/-! The probe of `monitors/types/probes/memcached.ts`.  It asks for the version and for the counters
line by line, and offers its credentials where the server refuses to answer without them.  Whatever
the server sends, the password is told at most once and only on demand, and where the stream is cut
changes nothing. -/

namespace Vigil.Wire.Memcached

open Js.Text Js.ByteLength Lib.Dialogue

open Js.Utf8 (decodeUtf8)

open Monitors.Push (trim)

open Net.Address (startsWith split join)

open Notifications.Redaction (isWordUnit fold)

open Notifications.Smtp (isControl)

open Notifications.SmtpConversation (isLineTerminator)

/-! ### Lines -/

def crlf : List UInt8 := [0x0D, 0x0A]

def maxReplyBytes : ℕ := 64 * 1024

/-- The loop's `pending.indexOf(CRLF)`: a line is decoded once it is there whole. -/
def takeLine (pending : List UInt8) : Option (JsString × List UInt8) :=
  (Lib.Cut.indexOf pending crlf).map fun i =>
    (decodeUtf8 (pending.take i), pending.drop (i + crlf.length))

/-- `/.*\bauth/i`, behind a unit of which `inWord` says whether it is a word unit. -/
def authBehind : Bool → JsString → Bool
  | _, [] => false
  | inWord, c :: rest =>
    (!inWord && ((c :: rest).take 4).map fold == js "auth") ||
      (!isLineTerminator c && authBehind (isWordUnit c) rest)

/-- `/^(CLIENT_ERROR|SERVER_ERROR)\b.*\bauth/i` -/
def isAuthError (line : JsString) : Bool :=
  [js "client_error", js "server_error"].contains ((line.take 12).map fold) &&
    !((line.drop 12).head?.any isWordUnit) && authBehind true (line.drop 12)

def isErrorLine (line : JsString) : Bool :=
  line == js "ERROR" || startsWith line (js "CLIENT_ERROR ") || startsWith line (js "SERVER_ERROR ")

def summarise (line : JsString) : JsString :=
  let printable := trim (line.map fun c => if isControl c then 0x20 else c)
  if 80 < printable.length then printable.take 80 ++ js "…" else printable

/-! ### The conversation -/

/-- The credentials of a monitor. -/
structure Credential where
  username : JsString
  password : JsString

/-- What a probe sends. -/
inductive Command
  | version
  | auth (credential : Credential)
  | stats

/-- The bytes that log in. -/
def encodeAuth (username password : JsString) : List UInt8 :=
  utf8 (js "set " ++ (username ++ (js " 0 0 " ++ (decimal (byteLength password) ++
    (js "\r\n" ++ (password ++ js "\r\n"))))))

/-- The command as it is sent. -/
def Command.bytes : Command → List UInt8
  | .version => utf8 (js "version\r\n")
  | .auth credential => encodeAuth credential.username credential.password
  | .stats => utf8 (js "stats\r\nstats settings\r\n")

/-- What the server is answering. -/
inductive Phase
  | version
  | auth
  | stats
  | settings

/-- What is kept of the server's answers. -/
structure MemcachedReply where
  version : Option JsString
  stats : List (JsString × JsString)
  settings : List (JsString × JsString)
  serverError : Option JsString

/-- How a probe ended. -/
inductive ProbeResult
  | measured (reply : MemcachedReply) (unavailable : Option JsString)
  | failed (error : JsString)

/-- Where a probe stands. -/
structure Session where
  phase : Phase
  reply : MemcachedReply
  authenticated : Bool
  settled : Option ProbeResult

/-- `settle`: the first result stands. -/
def Session.settle (s : Session) (result : ProbeResult) : Session :=
  { s with settled := s.settled <|> some result }

def Session.measured (s : Session) (unavailable : Option JsString) : Session :=
  s.settle (.measured s.reply unavailable)

def Session.refused (s : Session) (line : JsString) : Session :=
  { s with reply := { s.reply with serverError := some line } }

/-- `target.set(key, rest.join(" "))` of a line `STAT <name> <value>`. -/
def setStat (target : List (JsString × JsString)) (line : JsString) : List (JsString × JsString) :=
  match split (js " ") line with
  | _ :: key :: rest => Lib.Entries.set key (join rest (js " ")) target
  | _ => target

def Session.setStat (s : Session) (line : JsString) : Session :=
  match s.phase with
  | .stats => { s with reply := { s.reply with stats := Memcached.setStat s.reply.stats line } }
  | _ => { s with reply := { s.reply with settings := Memcached.setStat s.reply.settings line } }

def readAuth (s : Session) (line : JsString) : Session × List Command :=
  if line = js "STORED" then ({ s with phase := .version }, [.version])
  else
    ((s.refused line).measured
      (some (js "The server refused the stored credentials: " ++ summarise line)), [])

/-- What a probe does at the answer to `version`; it logs in if it is asked to and can. -/
def readVersion (credential : Option Credential) (s : Session) (line : JsString) :
    Session × List Command :=
  if startsWith line (js "VERSION ") then
    ({ s with phase := .stats, reply := { s.reply with version := some (trim (line.drop 8)) } },
      [.stats])
  else if isAuthError line then
    match credential with
    | none =>
      ((s.refused line).measured
        (some (js "The server requires authentication and this monitor has no credentials")), [])
    | some credential =>
      if s.authenticated then
        ((s.refused line).measured (some
          (js "The server still requires authentication after signing in: " ++ summarise line)), [])
      else ({ s.refused line with authenticated := true, phase := .auth }, [.auth credential])
  else ((s.refused line).measured none, [])

/-- What a probe does at a line of the statistics: `END` ends a table, and the second one the probe.
-/
def readStat (s : Session) (line : JsString) : Session × List Command :=
  if line = js "END" then
    match s.phase with
    | .stats => ({ s with phase := .settings }, [])
    | _ => (s.measured none, [])
  else if startsWith line (js "STAT ") then (s.setStat line, [])
  else if isErrorLine line then ((s.refused line).measured none, [])
  else (s, [])

/-- What a probe does at a line. -/
def readLine (credential : Option Credential) (s : Session) (line : JsString) :
    Session × List Command :=
  match s.phase with
  | .auth => readAuth s line
  | .version => readVersion credential s line
  | .stats | .settings => readStat s line

/-! ### The socket -/

theorem takeLine_shorter {pending rest : List UInt8} {line : JsString}
    (h : takeLine pending = some (line, rest)) : rest.length < pending.length := by
  obtain ⟨i, hi, heq⟩ := Option.map_eq_some_iff.mp h
  obtain ⟨-, hcrlf, -⟩ := Lib.Cut.indexOf_eq_some_iff.mp hi
  have hlength : crlf.length ≤ (pending.drop i).length := hcrlf.length_le
  have hrest : pending.drop (i + crlf.length) = rest := congrArg Prod.snd heq
  rw [← hrest, List.length_drop]
  rw [List.length_drop] at hlength
  have htwo : crlf.length = 2 := rfl
  omega

theorem takeLine_stable {pending rest : List UInt8} {line : JsString} (more : List UInt8)
    (h : takeLine pending = some (line, rest)) :
    takeLine (pending ++ more) = some (line, rest ++ more) := by
  obtain ⟨i, hi, heq⟩ := Option.map_eq_some_iff.mp h
  obtain ⟨hle, hcrlf, -⟩ := Lib.Cut.indexOf_eq_some_iff.mp hi
  have hlength : crlf.length ≤ (pending.drop i).length := hcrlf.length_le
  rw [List.length_drop] at hlength
  have hline : decodeUtf8 (pending.take i) = line := congrArg Prod.fst heq
  have hrest : pending.drop (i + crlf.length) = rest := congrArg Prod.snd heq
  rw [takeLine, Lib.Cut.indexOf_extend hi, Option.map_some, List.take_append_of_le_length hle,
    List.drop_append_of_le_length (by omega), hline, hrest]

/-- The lines in a stream of bytes. -/
def lines : Reader UInt8 JsString where
  take := takeLine
  shorter := takeLine_shorter
  stable := takeLine_stable

def probe (credential : Option Credential) : Party JsString Session Command where
  done := fun s => s.settled.isSome
  answer := readLine credential

structure Exchange where
  talk : Talk UInt8 JsString Session Command
  received : ℕ

/-- The connection is open, and the version was asked for. -/
def connected : Exchange where
  talk :=
    { state :=
        { phase := .version
          reply := { version := none, stats := [], settings := [], serverError := none }
          authenticated := false
          settled := none }
      heard := []
      said := [.version]
      buffer := [] }
  received := 0

/-- What can happen on the connection. -/
inductive Event
  | data (chunk : List UInt8)
  | timeout
  | error (message : JsString)
  | close

def Exchange.failed (x : Exchange) (error : JsString) : Exchange :=
  { x with talk := { x.talk with state := x.talk.state.settle (.failed error) } }

def timedOut (timeoutMs : ℕ) : JsString := js "Timed out after " ++ (decimal timeoutMs ++ js "ms")

/-- One event; too many bytes end the probe. -/
def step (credential : Option Credential) (timeoutMs : ℕ) (x : Exchange) : Event → Exchange
  | .data chunk =>
    let x := { x with received := x.received + chunk.length }
    if maxReplyBytes < x.received then
      x.failed (js "The server sent more than " ++ (decimal maxReplyBytes ++
        js " bytes without finishing its reply"))
    else { x with talk := receive lines (probe credential) x.talk chunk }
  | .timeout => x.failed (timedOut timeoutMs)
  | .error message => x.failed message
  | .close =>
    if x.talk.state.reply.version.isSome then
      { x with talk := { x.talk with state := x.talk.state.measured none } }
    else x.failed (js "The server closed the connection without replying")

def run (credential : Option Credential) (timeoutMs : ℕ) (events : List Event) : Exchange :=
  events.foldl (step credential timeoutMs) connected

/-! ### The cut of the stream -/

variable {credential : Option Credential} {heard : List JsString} {said : List Command}

theorem run_data {timeoutMs : ℕ} {x : Exchange} {chunks : List (List UInt8)}
    (h : x.received + chunks.flatten.length ≤ maxReplyBytes) :
    (chunks.map Event.data).foldl (step credential timeoutMs) x =
      { talk := chunks.foldl (receive lines (probe credential)) x.talk
        received := x.received + chunks.flatten.length } := by
  induction chunks generalizing x with
  | nil => rfl
  | cons chunk chunks ih =>
    rw [List.flatten_cons, List.length_append] at h
    have hstep : step credential timeoutMs x (.data chunk) =
        { talk := receive lines (probe credential) x.talk chunk
          received := x.received + chunk.length } :=
      if_neg (Nat.not_lt.mpr (by show x.received + chunk.length ≤ _; omega))
    rw [List.map_cons, List.foldl_cons, hstep, ih (by show _ + _ + _ ≤ _; omega), List.foldl_cons,
      List.flatten_cons, List.length_append, Nat.add_assoc]

/-- What is asked and what comes of it depend on the bytes of the server alone, as long as they are
not too many, and not on the packets that they come in. -/
theorem packets_do_not_matter (credential : Option Credential) (timeoutMs : ℕ)
    {chunks chunks' : List (List UInt8)} (hsame : chunks.flatten = chunks'.flatten)
    (hcap : chunks.flatten.length ≤ maxReplyBytes) (events : List Event) :
    run credential timeoutMs (chunks.map .data ++ events) =
      run credential timeoutMs (chunks'.map .data ++ events) := by
  have hcap' : chunks'.flatten.length ≤ maxReplyBytes := hsame ▸ hcap
  have hstart : Waiting lines (probe credential) connected.talk := waiting_of_nil rfl
  unfold run
  rw [List.foldl_append, List.foldl_append, run_data (by rwa [connected, Nat.zero_add]),
    run_data (by rwa [connected, Nat.zero_add]), foldl_receive_congr hstart hsame, hsame]

theorem version_in_two_packets :
    run none 5000 ([utf8 (js "VERSION 1.6.22\r\n")].map .data ++ [.close]) =
      run none 5000 ([utf8 (js "VERSION 1.6"), utf8 (js ".22\r\n")].map .data ++ [.close]) :=
  packets_do_not_matter none 5000 (by decide) (by decide) [.close]

/-! ### What is said -/

/-- Where the conversation stands while it goes on. -/
inductive Standing (credential : Option Credential) :
    Session → List JsString → List Command → Prop
  | asked {s : Session} (hphase : s.phase = .version) (hnew : s.authenticated = false) :
    Standing credential s [] [.version]
  | told {s : Session} {heard : List JsString} (hphase : s.phase = .stats ∨ s.phase = .settings) :
    Standing credential s heard [.version, .stats]
  | offered {s : Session} {c : Credential} {refusal : JsString} (hstored : credential = some c)
    (hrefusal : isAuthError refusal = true) (hphase : s.phase = .auth)
    (hoffered : s.authenticated = true) :
    Standing credential s [refusal] [.version, .auth c]
  | accepted {s : Session} {c : Credential} {refusal : JsString} (hstored : credential = some c)
    (hrefusal : isAuthError refusal = true) (hphase : s.phase = .version)
    (hoffered : s.authenticated = true) :
    Standing credential s [refusal, js "STORED"] [.version, .auth c, .version]
  | admitted {s : Session} {c : Credential} {refusal : JsString} {rest : List JsString}
    (hstored : credential = some c) (hrefusal : isAuthError refusal = true)
    (hphase : s.phase = .stats ∨ s.phase = .settings) :
    Standing credential s (refusal :: js "STORED" :: rest)
      [.version, .auth c, .version, .stats]

/-- All that the probe says to any server. -/
def Spoken (credential : Option Credential) (heard : List JsString) (said : List Command) : Prop :=
  said <+: [.version, .stats] ∨
    ∃ c refusal, credential = some c ∧ heard.head? = some refusal ∧ isAuthError refusal = true ∧
      (said = [.version, .auth c] ∨
        heard[1]? = some (js "STORED") ∧ said <+: [.version, .auth c, .version, .stats])

theorem Standing.spoken {s : Session} (h : Standing credential s heard said)
    (more : List JsString) : Spoken credential (heard ++ more) said := by
  cases h with
  | asked _ _ => exact .inl ⟨[.stats], rfl⟩
  | told _ => exact .inl List.prefix_rfl
  | offered hstored hrefusal _ _ => exact .inr ⟨_, _, hstored, rfl, hrefusal, .inl rfl⟩
  | accepted hstored hrefusal _ _ =>
    exact .inr ⟨_, _, hstored, rfl, hrefusal, .inr ⟨rfl, [.stats], rfl⟩⟩
  | admitted hstored hrefusal _ =>
    exact .inr ⟨_, _, hstored, rfl, hrefusal, .inr ⟨rfl, List.prefix_rfl⟩⟩

/-- What the probe has said is in order, and it stands where it should if it goes on. -/
def Kept (credential : Option Credential) (s : Session) (heard : List JsString)
    (said : List Command) : Prop :=
  Spoken credential heard said ∧ (s.settled.isSome = false → Standing credential s heard said)

theorem kept_of_standing {s : Session} (h : Standing credential s heard said) :
    Kept credential s heard said := by
  refine ⟨?_, fun _ => h⟩
  have hspoken := h.spoken []
  rwa [List.append_nil] at hspoken

theorem kept_of_settle {s s' : Session} (h : Standing credential s heard said) (line : JsString)
    (result : ProbeResult) : Kept credential (s'.settle result) (heard ++ [line]) (said ++ []) := by
  refine ⟨?_, fun hsettled => absurd hsettled ?_⟩
  · rw [List.append_nil]
    exact h.spoken [line]
  · cases hs : s'.settled with
    | none | some found =>
      rw [Session.settle, hs]
      exact Bool.noConfusion

theorem kept_readStat {s : Session} (h : Standing credential s heard said)
    (hnext : ∀ (s' : Session) line, s'.phase = .stats ∨ s'.phase = .settings → Standing credential
      s' (heard ++ [line]) said) (hphase : s.phase = .stats ∨ s.phase = .settings)
    (line : JsString) :
    Kept credential (readStat s line).1 (heard ++ [line]) (said ++ (readStat s line).2) := by
  have hgo (s' : Session) (hs' : s'.phase = .stats ∨ s'.phase = .settings) :
      Kept credential s' (heard ++ [line]) (said ++ []) := by
    rw [List.append_nil]
    exact kept_of_standing (hnext s' line hs')
  unfold readStat
  split
  · split
    · exact hgo _ (.inr rfl)
    · exact kept_of_settle h line _
  · split
    · apply hgo
      unfold Session.setStat
      split
      · exact .inl ‹_›
      · exact hphase
    · split
      · exact kept_of_settle h line _
      · exact hgo s hphase

theorem kept_readLine {s : Session} (h : Standing credential s heard said) (line : JsString) :
    Kept credential (readLine credential s line).1 (heard ++ [line])
      (said ++ (readLine credential s line).2) := by
  unfold readLine
  cases h with
  | asked hphase hnew =>
    rw [hphase]
    show Kept credential (readVersion credential s line).1 _ (_ ++ (readVersion credential s line).2)
    unfold readVersion
    split
    · exact kept_of_standing (.told (.inl rfl))
    · split
      · rename_i hrefusal
        split
        · exact kept_of_settle (.asked hphase hnew) line _
        · rw [hnew]
          exact kept_of_standing (.offered rfl hrefusal rfl rfl)
      · exact kept_of_settle (.asked hphase hnew) line _
  | told hphase =>
    have htold : Standing credential s heard [.version, .stats] := .told hphase
    have hstat := kept_readStat htold
      (fun _ _ hs' => .told hs') hphase line
    rcases hphase with hstats | hsettings
    · rwa [hstats]
    · rwa [hsettings]
  | offered hstored hrefusal hphase hoffered =>
    rw [hphase]
    show Kept credential (readAuth s line).1 _ (_ ++ (readAuth s line).2)
    unfold readAuth
    split
    · rename_i hline
      rw [hline]
      exact kept_of_standing (.accepted hstored hrefusal rfl hoffered)
    · exact kept_of_settle (.offered hstored hrefusal hphase hoffered) line _
  | @accepted c refusal hstored hrefusal hphase hoffered =>
    subst hstored
    have hstanding : Standing (some c) s [refusal, js "STORED"] [.version, .auth c, .version] :=
      .accepted rfl hrefusal hphase hoffered
    rw [hphase]
    show Kept (some c) (readVersion (some c) s line).1 _ (_ ++ (readVersion (some c) s line).2)
    unfold readVersion
    split
    · exact kept_of_standing (.admitted rfl hrefusal (.inl rfl))
    · split
      · exact kept_of_settle hstanding line _
      · exact kept_of_settle hstanding line _
  | @admitted c refusal rest hstored hrefusal hphase =>
    have hadmitted : Standing credential s (refusal :: js "STORED" :: rest)
        [.version, .auth c, .version, .stats] := .admitted hstored hrefusal hphase
    have hstat := kept_readStat hadmitted
      (fun _ _ hs' => .admitted hstored hrefusal hs') hphase line
    rcases hphase with hstats | hsettings
    · rwa [hstats]
    · rwa [hsettings]

def Exchange.Kept (credential : Option Credential) (x : Exchange) : Prop :=
  Memcached.Kept credential x.talk.state x.talk.heard x.talk.said

theorem kept_settled {x : Exchange} (h : x.Kept credential) (result : ProbeResult) :
    Exchange.Kept credential
      { x with talk := { x.talk with state := x.talk.state.settle result } } := by
  refine ⟨h.1, fun hsettled => absurd hsettled ?_⟩
  show ¬(x.talk.state.settled <|> some result).isSome = false
  cases x.talk.state.settled with
  | none => exact Bool.noConfusion
  | some found => exact Bool.noConfusion

theorem kept_step {timeoutMs : ℕ} {x : Exchange} (h : x.Kept credential) (event : Event) :
    (step credential timeoutMs x event).Kept credential := by
  cases event with
  | data chunk =>
    simp only [step]
    split
    · exact kept_settled h _
    · show Kept credential _ _ _
      apply pump_induct (P := Kept credential)
      · exact h
      · intro s heard said line hkept hgoing
        exact kept_readLine (hkept.2 hgoing) line
  | timeout => exact kept_settled h _
  | error message => exact kept_settled h _
  | close =>
    simp only [step]
    split
    · exact kept_settled h _
    · exact kept_settled h _

/-- Whatever a server sends, in whatever packets, and however the connection ends, the probe says no
more than the version and the counters are asked with, and it offers its credentials at most once,
to a server that has refused to answer without any. -/
theorem password_only_on_demand (credential : Option Credential) (timeoutMs : ℕ)
    (events : List Event) :
    Spoken credential (run credential timeoutMs events).talk.heard
      (run credential timeoutMs events).talk.said := by
  have hstart : connected.Kept credential := kept_of_standing (.asked rfl rfl)
  have hrun (x : Exchange) (h : x.Kept credential) :
      (events.foldl (step credential timeoutMs) x).Kept credential := by
    induction events generalizing x with
    | nil => exact h
    | cons event events ih => exact ih _ (kept_step h event)
  exact (hrun connected hstart).1

end Vigil.Wire.Memcached
