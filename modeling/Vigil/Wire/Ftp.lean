import Vigil.Js.Garbled
import Vigil.Lib.Cut
import Vigil.Lib.Dialogue
import Vigil.Monitors.Push
import Vigil.Net.Address

/-! The probe of `monitors/types/probes/ftp.ts`.  It decodes what it receives read by read, so a cut
inside a character can garble a text.  It cannot garble the parse: the codes of the replies, the
commands and the outcome are those of every other cut.  The password is told to a server that has
asked for it, and to no other. -/

namespace Vigil.Wire.Ftp

open Js.Text Js.ByteLength Js.Garbled Lib.Blur Lib.Dialogue

open Js.Utf8 (decodeUtf8)

open Monitors.Push (trim)

open Net.Address (isDigit parseDigits startsWith)

/-! ### Replies -/

def cr : UInt16 := 0x0D

def lf : UInt16 := 0x0A

/-- `line.replace(/\r$/, "")` -/
def chop (line : JsString) : JsString := if line.getLast? = some cr then line.dropLast else line

def takeLine (buffer : JsString) : Option (JsString × JsString) :=
  (buffer.idxOf? lf).map fun eol => (chop (buffer.take eol), buffer.drop (eol + 1))

/-- A reply; a line that begins with no code has none. -/
structure FtpReply where
  code : Option ℕ
  text : JsString
  lines : List JsString

/-- The digits and what follows them of a line that `/^\d{3}([ -]|$)/` matches. -/
def replyDigits : JsString → Option (JsString × Option UInt16)
  | [a, b, c] => if [a, b, c].all isDigit then some ([a, b, c], none) else none
  | a :: b :: c :: d :: _ =>
    if [a, b, c].all isDigit && (d == 0x20 || d == 0x2D) then some ([a, b, c], some d) else none
  | _ => none

def terminates (digits line : JsString) : Bool :=
  line == digits || startsWith line (digits ++ [0x20]) || startsWith line (digits ++ [0x09])

/-- The lines up to the terminator; as many steps as there are units are enough. -/
def readBlock (digits : JsString) :
    ℕ → JsString → List JsString → Option (List JsString × JsString)
  | 0, _, _ => none
  | fuel + 1, buffer, lines =>
    match takeLine buffer with
    | none => none
    | some (line, rest) =>
      if terminates digits line then some (lines, rest)
      else readBlock digits fuel rest (lines ++ [trim line])

def readReply (buffer : JsString) : Option (FtpReply × JsString) :=
  match takeLine buffer with
  | none => none
  | some (line, rest) =>
    match replyDigits line with
    | none => some ({ code := none, text := line, lines := [] }, rest)
    | some (digits, separator) =>
      let code := some (parseDigits 10 digits)
      let text := trim (line.drop 4)
      if separator = some 0x2D then
        (readBlock digits rest.length rest []).map fun block =>
          ({ code, text, lines := block.1 }, block.2)
      else some ({ code, text, lines := [] }, rest)

/-! ### The conversation -/

/-- What the server is answering. -/
inductive Phase
  | greeting
  | feat
  | user
  | pass

/-- What was observed.  The texts may be of any type, so that they can be left out of sight. -/
structure FactBag (τ : Type) where
  greetingCode : Option (Option ℕ)
  banner : Option τ
  featCode : Option (Option ℕ)
  features : Option (List τ)
  loginCode : Option (Option ℕ)

/-- Nothing observed yet. -/
def FactBag.empty {τ : Type} : FactBag τ :=
  { greetingCode := none, banner := none, featCode := none, features := none, loginCode := none }

/-- How a probe ended. -/
inductive ProbeResult (τ : Type)
  | measured (facts : FactBag τ)
  | failed (error : JsString)

/-- Where a probe stands. -/
structure Session (τ : Type) where
  phase : Phase
  facts : FactBag τ
  settled : Option (ProbeResult τ)

structure FtpConfig where
  username : Option JsString
  password : Option JsString

/-- The commands that a probe sends. -/
inductive Command
  | feat
  | user (username : JsString)
  | pass (password : JsString)
  | quit

/-- The command as it is sent. -/
def Command.text : Command → JsString
  | .feat => js "FEAT\r\n"
  | .user username => js "USER " ++ (username ++ js "\r\n")
  | .pass password => js "PASS " ++ (password ++ js "\r\n")
  | .quit => js "QUIT\r\n"

def maxBanner : ℕ := 200

def maxFeatures : ℕ := 32

def maxResponseLength : ℕ := 64 * 1024

def measured (s : Session JsString) (facts : FactBag JsString) : Session JsString × List Command :=
  ({ s with facts, settled := some (.measured facts) }, [.quit])

/-- What a probe does at a reply: it notes the codes and asks on, or ends. -/
def answer (config : FtpConfig) (s : Session JsString) (reply : FtpReply) :
    Session JsString × List Command :=
  match s.phase with
  | .greeting =>
    let facts : FactBag JsString :=
      { FactBag.empty with
        greetingCode := some reply.code
        banner := some (reply.text.take maxBanner) }
    if reply.code = some 220 then ({ s with phase := .feat, facts }, [.feat]) else measured s facts
  | .feat =>
    let features := if reply.code = some 211 then some (reply.lines.take maxFeatures) else
      s.facts.features
    let facts := { s.facts with featCode := some reply.code, features }
    match config.username with
    | none => measured s facts
    | some username => ({ s with phase := .user, facts }, [.user username])
  | .user =>
    match config.password with
    | some password =>
      if reply.code = some 331 then ({ s with phase := .pass }, [.pass password])
      else measured s { s.facts with loginCode := some reply.code }
    | none => measured s { s.facts with loginCode := some reply.code }
  | .pass => measured s { s.facts with loginCode := some reply.code }

/-! ### The socket -/

variable {buffer line rest digits buffer' line' : JsString} {lines lines' : List JsString}
  {config : FtpConfig} {timeoutMs : ℕ} {s s' : Session JsString} {heard : List FtpReply}
  {said : List Command}

theorem takeLine_cut (h : takeLine buffer = some (line, rest)) :
    ∃ before, buffer = before ++ lf :: rest ∧ lf ∉ before ∧ line = chop before := by
  obtain ⟨eol, heol, heq⟩ := Option.map_eq_some_iff.mp h
  obtain ⟨hcut, hfirst⟩ := Lib.Cut.idxOf?_cut heol
  cases heq
  exact ⟨_, hcut, hfirst, rfl⟩

theorem takeLine_of_cut {before : JsString} (h : lf ∉ before) (rest : JsString) :
    takeLine (before ++ lf :: rest) = some (chop before, rest) := by
  have hdrop : (before ++ lf :: rest).drop (before.length + 1) = rest := by
    rw [← List.drop_drop, List.drop_left]
    rfl
  rw [takeLine, Lib.Cut.idxOf?_append h, Option.map_some, List.take_left, hdrop]

theorem takeLine_shorter (h : takeLine buffer = some (line, rest)) :
    rest.length < buffer.length := by
  obtain ⟨before, rfl, -, -⟩ := takeLine_cut h
  rw [List.length_append, List.length_cons]
  omega

theorem takeLine_stable (more : JsString) (h : takeLine buffer = some (line, rest)) :
    takeLine (buffer ++ more) = some (line, rest ++ more) := by
  obtain ⟨before, rfl, hfirst, rfl⟩ := takeLine_cut h
  rw [List.append_assoc, List.cons_append, takeLine_of_cut hfirst]

theorem readBlock_shorter {fuel : ℕ}
    (h : readBlock digits fuel buffer lines = some (lines', rest)) :
    rest.length < buffer.length := by
  induction fuel generalizing buffer lines with
  | zero => exact absurd h nofun
  | succ fuel ih =>
    rw [readBlock] at h
    cases hline : takeLine buffer with
    | none =>
      rw [hline] at h
      exact absurd h nofun
    | some found =>
      obtain ⟨line, left⟩ := found
      have hshort := takeLine_shorter hline
      simp only [hline] at h
      split at h
      · obtain ⟨-, rfl⟩ := Prod.mk.inj (Option.some.inj h)
        exact hshort
      · exact Nat.lt_trans (ih h) hshort

theorem readBlock_stable {fuel fuel' : ℕ} (hfuel : fuel ≤ fuel') (more : JsString)
    (h : readBlock digits fuel buffer lines = some (lines', rest)) :
    readBlock digits fuel' (buffer ++ more) lines = some (lines', rest ++ more) := by
  induction fuel generalizing fuel' buffer lines with
  | zero => exact absurd h nofun
  | succ fuel ih =>
    obtain ⟨fuel', rfl⟩ := Nat.exists_eq_succ_of_ne_zero (Nat.ne_zero_of_lt hfuel)
    rw [readBlock] at h ⊢
    cases hline : takeLine buffer with
    | none =>
      rw [hline] at h
      exact absurd h nofun
    | some found =>
      obtain ⟨line, left⟩ := found
      simp only [hline] at h
      simp only [takeLine_stable more hline]
      split at h
      · rename_i hend
        cases h
        rw [if_pos hend]
      · rename_i hmore
        rw [if_neg hmore]
        exact ih (Nat.le_of_succ_le_succ hfuel) h

theorem readReply_shorter {reply : FtpReply} (h : readReply buffer = some (reply, rest)) :
    rest.length < buffer.length := by
  unfold readReply at h
  cases hline : takeLine buffer with
  | none =>
    rw [hline] at h
    exact absurd h nofun
  | some found =>
    obtain ⟨line, left⟩ := found
    have hshort := takeLine_shorter hline
    simp only [hline] at h
    split at h
    · obtain ⟨-, rfl⟩ := Prod.mk.inj (Option.some.inj h)
      exact hshort
    · split at h
      · obtain ⟨block, hblock, heq⟩ := Option.map_eq_some_iff.mp h
        obtain ⟨-, rfl⟩ := Prod.mk.inj heq
        exact Nat.lt_trans (readBlock_shorter hblock) hshort
      · obtain ⟨-, rfl⟩ := Prod.mk.inj (Option.some.inj h)
        exact hshort

theorem readReply_stable {reply : FtpReply} (more : JsString)
    (h : readReply buffer = some (reply, rest)) :
    readReply (buffer ++ more) = some (reply, rest ++ more) := by
  unfold readReply at h ⊢
  cases hline : takeLine buffer with
  | none =>
    rw [hline] at h
    exact absurd h nofun
  | some found =>
    obtain ⟨line, left⟩ := found
    simp only [hline] at h
    simp only [takeLine_stable more hline]
    split at h
    · cases h
      rfl
    · split at h
      · rename_i hblock
        obtain ⟨block, hread, heq⟩ := Option.map_eq_some_iff.mp h
        cases heq
        have hfuel : left.length ≤ (left ++ more).length := by
          rw [List.length_append]
          exact Nat.le_add_right _ _
        rw [if_pos hblock, readBlock_stable hfuel more hread]
        rfl
      · rename_i hblock
        cases h
        rw [if_neg hblock]

def replies : Reader UInt16 FtpReply where
  take := readReply
  shorter := readReply_shorter
  stable := readReply_stable

def probe (config : FtpConfig) : Party FtpReply (Session JsString) Command where
  done := fun s => s.settled.isSome
  answer := answer config

abbrev Conversation := Talk UInt16 FtpReply (Session JsString) Command

def start : Conversation where
  state := { phase := .greeting, facts := .empty, settled := none }
  heard := []
  said := []
  buffer := []

/-- How a connection ends by itself. -/
inductive Ending
  | timeout
  | error (message : JsString)
  | close

/-- What can happen on the connection. -/
inductive Event
  | data (chunk : List UInt8)
  | ended (ending : Ending)

def closedEarly : Phase → JsString
  | .greeting => js "The server closed the connection without greeting"
  | .feat => js "The server closed the connection without answering FEAT"
  | .user => js "The server closed the connection without answering USER"
  | .pass => js "The server closed the connection without answering PASS"

/-- The first result stands. -/
def Session.failed {τ : Type} (s : Session τ) (error : JsString) : Session τ :=
  { s with settled := s.settled <|> some (.failed error) }

def Session.endedBy {τ : Type} (s : Session τ) (timeoutMs : ℕ) : Ending → Session τ
  | .timeout => s.failed (js "Timed out after " ++ (decimal timeoutMs ++ js "ms"))
  | .error message => s.failed message
  | .close => s.failed (closedEarly s.phase)

def step (config : FtpConfig) (timeoutMs : ℕ) (t : Conversation) : Event → Conversation
  | .data chunk =>
    let t := t.arrive (decodeUtf8 chunk)
    if maxResponseLength < t.buffer.length then
      { t with state := t.state.failed (js "The response exceeded " ++
          (decimal maxResponseLength ++ js " bytes")) }
    else pump replies (probe config) t
  | .ended ending => { t with state := t.state.endedBy timeoutMs ending }

def run (config : FtpConfig) (timeoutMs : ℕ) (events : List Event) : Conversation :=
  events.foldl (step config timeoutMs) start

/-! ### The cut of the stream -/

theorem length_decoded_le (chunks : List (List UInt8)) :
    (chunks.map decodeUtf8).flatten.length ≤ chunks.flatten.length := (mirrors_chunks chunks).length_le

theorem run_data {t : Conversation} {chunks : List (List UInt8)}
    (h : t.buffer.length + (chunks.map decodeUtf8).flatten.length ≤ maxResponseLength) :
    (chunks.map Event.data).foldl (step config timeoutMs) t =
      (chunks.map decodeUtf8).foldl (receive replies (probe config)) t := by
  induction chunks generalizing t with
  | nil => rfl
  | cons chunk chunks ih =>
    rw [List.map_cons, List.flatten_cons, List.length_append] at h
    have hfits : ¬maxResponseLength < (t.arrive (decodeUtf8 chunk)).buffer.length := by
      show ¬maxResponseLength < (t.buffer ++ decodeUtf8 chunk).length
      rw [List.length_append]
      omega
    have hstep : step config timeoutMs t (.data chunk) =
        receive replies (probe config) t (decodeUtf8 chunk) := if_neg hfits
    have hbuffer : (receive replies (probe config) t (decodeUtf8 chunk)).buffer.length ≤
        t.buffer.length + (decodeUtf8 chunk).length := by
      rw [← List.length_append]
      exact length_pump_le (t.arrive (decodeUtf8 chunk))
    rw [List.map_cons, List.foldl_cons, hstep, ih (by omega), List.map_cons, List.foldl_cons]

/-! ### What cannot be garbled -/

theorem chop_alike {s t : JsString} (h : Alike viewUnit s t) :
    Alike viewUnit (chop s) (chop t) := by
  have hcr : viewUnit cr = some cr := viewUnit_ascii rfl
  have hview (s : JsString) : s.getLast? = some cr ↔ s.getLast?.map viewUnit = some (some cr) := by
    rw [Option.map_eq_some_iff]
    constructor
    · intro hlast
      exact ⟨cr, hlast, hcr⟩
    · rintro ⟨c, hlast, hc⟩
      rw [hlast, (viewUnit_eq_some_iff.mp hc).1]
  have hlast : s.getLast? = some cr ↔ t.getLast? = some cr := by
    rw [hview, hview, h.getLast?]
  unfold chop
  by_cases hs : s.getLast? = some cr
  · rw [if_pos hs, if_pos (hlast.mp hs)]
    apply Alike.dropLast hcr hcr
    rwa [List.dropLast_append_getLast? cr hs, List.dropLast_append_getLast? cr (hlast.mp hs)]
  · rw [if_neg hs, if_neg fun ht => hs (hlast.mpr ht)]
    exact h

theorem takeLine_alike (h : Alike viewUnit buffer buffer') :
    Option.Rel (fun found found' => Alike viewUnit found.1 found'.1 ∧ Alike viewUnit found.2 found'.2)
      (takeLine buffer) (takeLine buffer') := by
  have hlf : viewUnit lf = some lf := viewUnit_ascii rfl
  have hmem {s t : JsString} (h : Alike viewUnit s t) (hs : lf ∈ s) : lf ∈ t := by
    have hseen : some lf ∈ blur viewUnit false s := mem_blur_iff.mpr ⟨lf, hs, hlf⟩
    rw [h] at hseen
    obtain ⟨c, hc, hview⟩ := mem_blur_iff.mp hseen
    rwa [(viewUnit_eq_some_iff.mp hview).1] at hc
  by_cases hbuffer : lf ∈ buffer
  · obtain ⟨s, rest, rfl, hs⟩ := List.eq_append_cons_of_mem hbuffer
    obtain ⟨s', rest', rfl, hs'⟩ := List.eq_append_cons_of_mem (hmem h hbuffer)
    rw [takeLine_of_cut hs, takeLine_of_cut hs']
    have hfree {s : JsString} (hs : lf ∉ s) : ∀ c ∈ s, viewUnit c ≠ some lf := by
      intro c hc hview
      rw [(viewUnit_eq_some_iff.mp hview).1] at hc
      exact hs hc
    obtain ⟨hline, hrest⟩ := h.cut hlf (hfree hs) (hfree hs')
    exact .some ⟨chop_alike hline, hrest⟩
  · have hnone {s : JsString} (hs : lf ∉ s) : takeLine s = none := by
      rw [takeLine, List.idxOf?_eq_none_iff.mpr hs]
      rfl
    rw [hnone hbuffer, hnone fun hbuffer' => hbuffer (hmem h.symm hbuffer')]
    exact .none

theorem isAscii_of_isDigit {c : UInt16} (h : isDigit c = true) : isAscii c = true := by
  rw [isAscii_iff]
  have hhigh := (Bool.and_eq_true_iff.mp h).2
  exact Nat.lt_of_le_of_lt (UInt16.le_iff_toNat_le.mp (of_decide_eq_true hhigh)) (by decide)

theorem all_isAscii (h : digits.all isDigit = true) : digits.all isAscii = true := by
  rw [List.all_eq_true] at h ⊢
  exact fun c hc => isAscii_of_isDigit (h c hc)

theorem digits_of_replyDigits {separator : Option UInt16}
    (h : replyDigits line = some (digits, separator)) : digits.all isAscii = true := by
  apply all_isAscii
  unfold replyDigits at h
  split at h
  · split at h
    · cases h
      assumption
    · exact absurd h nofun
  · split at h
    · rename_i hboth
      cases h
      exact (Bool.and_eq_true_iff.mp hboth).1
    · exact absurd h nofun
  · exact absurd h nofun

theorem replyDigits_of_alike {found : JsString × Option UInt16} (h : Alike viewUnit line line')
    (hfound : replyDigits line = some found) : replyDigits line' = some found := by
  unfold replyDigits at hfound
  split at hfound
  · rename_i a b c
    split at hfound
    · rename_i hdigits
      rw [(eq_alike (all_isAscii hdigits) h).mp rfl, replyDigits, if_pos hdigits, hfound]
    · exact absurd hfound nofun
  · rename_i a b c d rest
    split at hfound
    · rename_i hboth
      obtain ⟨hdigits, hd⟩ := Bool.and_eq_true_iff.mp hboth
      have hascii : isAscii d = true := by
        rw [Bool.or_eq_true, beq_iff_eq, beq_iff_eq] at hd
        rcases hd with rfl | rfl
        · rfl
        · rfl
      obtain ⟨u, rfl, hrest⟩ := alike_append (s := [a, b, c]) (all_isAscii hdigits) h
      obtain ⟨v, rfl, -⟩ := alike_cons hascii hrest
      show replyDigits (a :: b :: c :: d :: v) = some found
      rw [replyDigits, if_pos hboth, hfound]
    · exact absurd hfound nofun
  · exact absurd hfound nofun

theorem replyDigits_alike (h : Alike viewUnit line line') :
    replyDigits line = replyDigits line' := by
  apply Option.ext
  exact fun found => ⟨replyDigits_of_alike h, replyDigits_of_alike h.symm⟩

theorem terminates_alike (hdigits : digits.all isAscii = true) (h : Alike viewUnit line line') :
    terminates digits line = terminates digits line' := by
  have hwith {c : UInt16} (hc : isAscii c = true) : (digits ++ [c]).all isAscii = true := by
    rw [List.all_append, hdigits]
    simp [hc]
  have heq : (line == digits) = (line' == digits) := by
    rw [Bool.eq_iff_iff, beq_iff_eq, beq_iff_eq]
    exact eq_alike hdigits h
  rw [terminates, terminates, heq, startsWith, startsWith, startsWith, startsWith,
    isPrefixOf_alike (hwith rfl) h, isPrefixOf_alike (hwith rfl) h]

theorem readBlock_alike (hdigits : digits.all isAscii = true) {fuel fuel' : ℕ}
    (h : Alike viewUnit buffer buffer') (hfuel : buffer.length ≤ fuel)
    (hfuel' : buffer'.length ≤ fuel') (hlines : lines.length = lines'.length) :
    Option.Rel (fun block block' => block.1.length = block'.1.length ∧
        Alike viewUnit block.2 block'.2)
      (readBlock digits fuel buffer lines) (readBlock digits fuel' buffer' lines') := by
  induction fuel generalizing fuel' buffer buffer' lines lines' with
  | zero =>
    obtain rfl := List.length_eq_zero_iff.mp (Nat.le_zero.mp hfuel)
    obtain rfl := h.nil_left
    cases fuel' with
    | zero => exact .none
    | succ fuel' => exact .none
  | succ fuel ih =>
    cases fuel' with
    | zero =>
      obtain rfl := List.length_eq_zero_iff.mp (Nat.le_zero.mp hfuel')
      obtain rfl := h.symm.nil_left
      exact .none
    | succ fuel' =>
      rw [readBlock, readBlock]
      obtain ⟨hline, hline'⟩ | ⟨⟨line, rest⟩, ⟨line', rest'⟩, hline, hline', hboth⟩ :=
        rel_cases (takeLine_alike h)
      · rw [hline, hline']
        exact .none
      · have hshort := takeLine_shorter hline
        have hshort' := takeLine_shorter hline'
        obtain ⟨halike, hrest⟩ : Alike viewUnit line line' ∧ Alike viewUnit rest rest' := hboth
        simp only [hline, hline', terminates_alike hdigits halike]
        split
        · exact .some ⟨hlines, hrest⟩
        · apply ih hrest
          · omega
          · omega
          · rw [List.length_append, List.length_append, hlines]
            rfl

/-- Replies with the same code and as many lines. -/
def Akin (reply reply' : FtpReply) : Prop :=
  reply.code = reply'.code ∧ reply.lines.length = reply'.lines.length

theorem readReply_alike (h : Alike viewUnit buffer buffer') :
    Option.Rel (fun found found' => Akin found.1 found'.1 ∧ Alike viewUnit found.2 found'.2)
      (readReply buffer) (readReply buffer') := by
  unfold readReply
  obtain ⟨hline, hline'⟩ | ⟨⟨line, rest⟩, ⟨line', rest'⟩, hline, hline', halike, hrest⟩ :=
    rel_cases (takeLine_alike h)
  · rw [hline, hline']
    exact .none
  · simp only [hline, hline']
    rw [← replyDigits_alike halike]
    cases hdigits : replyDigits line with
    | none => exact .some ⟨⟨rfl, rfl⟩, hrest⟩
    | some found =>
      obtain ⟨digits, separator⟩ := found
      dsimp only
      split
      · have hnone : ([] : List JsString).length = ([] : List JsString).length := rfl
        obtain ⟨hread, hread'⟩ | ⟨block, block', hread, hread', hlines, hleft⟩ :=
          rel_cases (readBlock_alike (digits_of_replyDigits hdigits) hrest (Nat.le_refl _)
            (Nat.le_refl _) hnone)
        · rw [hread, hread']
          exact .none
        · rw [hread, hread']
          exact .some ⟨⟨rfl, hlines⟩, hleft⟩
      · exact .some ⟨⟨rfl, rfl⟩, hrest⟩

/-! ### Out of sight -/

/-- The observation without its texts: the codes, and how many features there are. -/
def FactBag.codes {τ : Type} (facts : FactBag τ) : FactBag Unit where
  greetingCode := facts.greetingCode
  banner := facts.banner.map fun _ => ()
  featCode := facts.featCode
  features := facts.features.map fun lines => lines.map fun _ => ()
  loginCode := facts.loginCode

def ProbeResult.codes {τ : Type} : ProbeResult τ → ProbeResult Unit
  | .measured facts => .measured facts.codes
  | .failed error => .failed error

/-- The session without its texts. -/
def Session.codes {τ : Type} (s : Session τ) : Session Unit where
  phase := s.phase
  facts := s.facts.codes
  settled := s.settled.map ProbeResult.codes

def SameCodes (s s' : Session JsString) : Prop := s.codes = s'.codes

theorem SameCodes.parts (h : SameCodes s s') : s.phase = s'.phase ∧ s.facts.codes = s'.facts.codes ∧
      s.settled.map ProbeResult.codes = s'.settled.map ProbeResult.codes := by
  have hcodes : s.codes = s'.codes := h
  have hphase := congrArg Session.phase hcodes
  have hfacts := congrArg Session.facts hcodes
  have hsettled := congrArg Session.settled hcodes
  exact ⟨hphase, hfacts, hsettled⟩

theorem map_take_unit (h : lines.length = lines'.length) (n : ℕ) :
    ((lines.take n).map fun _ => ()) = (lines'.take n).map fun _ => () := by
  apply List.ext_getElem
  · rw [List.length_map, List.length_map, List.length_take, List.length_take, h]
  · intro i _ _
    rfl

theorem measured_codes (h : SameCodes s s') {facts facts' : FactBag JsString}
    (hfacts : facts.codes = facts'.codes) : SameCodes (measured s facts).1 (measured s' facts').1 ∧
      (measured s facts).2 = (measured s' facts').2 := by
  refine ⟨?_, rfl⟩
  show Session.mk s.phase facts.codes (some (.measured facts.codes)) =
    Session.mk s'.phase facts'.codes (some (.measured facts'.codes))
  rw [h.parts.1, hfacts]

theorem moved_codes (h : SameCodes s s') (phase : Phase) {facts facts' : FactBag JsString}
    (hfacts : facts.codes = facts'.codes) (said : List Command) :
    SameCodes { s with phase, facts } { s' with phase, facts := facts' } ∧ said = said := by
  refine ⟨?_, rfl⟩
  show Session.mk phase facts.codes _ = Session.mk phase facts'.codes _
  rw [hfacts, h.parts.2.2]

theorem answer_codes (config : FtpConfig) {reply reply' : FtpReply} (h : SameCodes s s')
    (hreply : Akin reply reply') : SameCodes (answer config s reply).1 (answer config s' reply').1 ∧
      (answer config s reply).2 = (answer config s' reply').2 := by
  obtain ⟨hphase, hfacts, hsettled⟩ := h.parts
  obtain ⟨hcode, hlines⟩ := hreply
  have hlogin : FactBag.codes { s.facts with loginCode := some reply.code } =
      FactBag.codes { s'.facts with loginCode := some reply'.code } := by
    rw [hcode]
    exact congrArg (fun facts : FactBag Unit => { facts with loginCode := some reply'.code }) hfacts
  unfold answer
  rw [← hphase, hcode]
  rw [hcode] at hlogin
  cases s.phase with
  | greeting =>
    dsimp only
    split
    · exact moved_codes h .feat rfl [.feat]
    · exact measured_codes h rfl
  | feat =>
    have hfeat : FactBag.codes { s.facts with
          featCode := some reply'.code
          features := if reply'.code = some 211 then some (reply.lines.take maxFeatures)
            else s.facts.features } =
        FactBag.codes { s'.facts with
          featCode := some reply'.code
          features := if reply'.code = some 211 then some (reply'.lines.take maxFeatures)
            else s'.facts.features } := by
      have hgreeting := congrArg FactBag.greetingCode hfacts
      have hbanner := congrArg FactBag.banner hfacts
      have hfeatures := congrArg FactBag.features hfacts
      have hloginCode := congrArg FactBag.loginCode hfacts
      simp only [FactBag.codes] at hgreeting hbanner hfeatures hloginCode
      unfold FactBag.codes
      dsimp only
      rw [hgreeting, hbanner, hloginCode]
      split
      · rw [Option.map_some, Option.map_some, map_take_unit hlines]
      · rw [hfeatures]
    cases config.username with
    | none => exact measured_codes h hfeat
    | some username => exact moved_codes h .user hfeat [.user username]
  | user =>
    cases config.password with
    | none => exact measured_codes h hlogin
    | some password =>
      dsimp only
      split
      · exact moved_codes h .pass hfacts [.pass password]
      · exact measured_codes h hlogin
  | pass => exact measured_codes h hlogin

theorem probe_respects (config : FtpConfig) :
    Respects replies (probe config) (Alike viewUnit) Akin SameCodes where
  take h := readReply_alike h
  done h := by
    have hsettled := congrArg Option.isSome h.parts.2.2
    rwa [Option.isSome_map, Option.isSome_map] at hsettled
  state h hreply := (answer_codes config h hreply).1
  said h hreply := (answer_codes config h hreply).2

theorem endedBy_codes (h : SameCodes s s') (timeoutMs : ℕ) (ending : Ending) :
    SameCodes (s.endedBy timeoutMs ending) (s'.endedBy timeoutMs ending) := by
  have hphase : s.phase = s'.phase := h.parts.1
  have hfailed (error : JsString) : SameCodes (s.failed error) (s'.failed error) := by
    have hfirst (s : Session JsString) : (s.failed error).codes = s.codes.failed error := by
      have horElse : (s.settled <|> some (ProbeResult.failed error)).map ProbeResult.codes =
          (s.settled.map ProbeResult.codes <|> some (ProbeResult.failed error)) := by
        cases s.settled with
        | none => rfl
        | some result => rfl
      exact congrArg (Session.mk s.phase s.facts.codes) horElse
    show (s.failed error).codes = (s'.failed error).codes
    rw [hfirst, hfirst, h]
  cases ending with
  | timeout => exact hfailed _
  | error message => exact hfailed message
  | close =>
    show SameCodes (s.failed (closedEarly s.phase)) (s'.failed (closedEarly s'.phase))
    rw [hphase]
    exact hfailed _

/-- A cut inside a character garbles a text and never the parse: of the bytes of a server, as long
as they are not too many, the commands, the codes and the outcome are the same however they are cut. -/
theorem cuts_never_garble_the_parse (config : FtpConfig) (timeoutMs : ℕ)
    {chunks chunks' : List (List UInt8)} (hsame : chunks.flatten = chunks'.flatten)
    (hcap : chunks.flatten.length ≤ maxResponseLength) (endings : List Ending) :
    (run config timeoutMs (chunks.map .data ++ endings.map .ended)).said =
        (run config timeoutMs (chunks'.map .data ++ endings.map .ended)).said ∧
      (run config timeoutMs (chunks.map .data ++ endings.map .ended)).state.codes =
        (run config timeoutMs (chunks'.map .data ++ endings.map .ended)).state.codes := by
  have hread {chunks : List (List UInt8)} (hcap : chunks.flatten.length ≤ maxResponseLength) :
      (chunks.map Event.data).foldl (step config timeoutMs) start =
        pump replies (probe config) (start.arrive (chunks.map decodeUtf8).flatten) := by
    have hfits : start.buffer.length + (chunks.map decodeUtf8).flatten.length ≤
        maxResponseLength := by
      have hle := length_decoded_le chunks
      show 0 + _ ≤ _
      omega
    rw [run_data hfits, foldl_receive (waiting_of_nil rfl)]
    rfl
  have hstart : Related (Alike viewUnit) SameCodes (start.arrive (chunks.map decodeUtf8).flatten)
      (start.arrive (chunks'.map decodeUtf8).flatten) := ⟨alike_chunks hsame, rfl, rfl⟩
  have hpump := (probe_respects config).pump hstart
  rw [← hread hcap, ← hread (hsame ▸ hcap)] at hpump
  have hover (t t' : Conversation) (hsaid : t.said = t'.said) (hcodes : SameCodes t.state t'.state) :
      ((endings.map Event.ended).foldl (step config timeoutMs) t).said =
          ((endings.map Event.ended).foldl (step config timeoutMs) t').said ∧
        ((endings.map Event.ended).foldl (step config timeoutMs) t).state.codes =
          ((endings.map Event.ended).foldl (step config timeoutMs) t').state.codes := by
    induction endings generalizing t t' with
    | nil => exact ⟨hsaid, hcodes⟩
    | cons ending endings ih => exact ih _ _ hsaid (endedBy_codes hcodes timeoutMs ending)
  unfold run
  rw [List.foldl_append, List.foldl_append]
  exact hover _ _ hpump.said hpump.state

/-- The banner's two bytes of a letter arrive in two reads. -/
theorem garbled_banner_is_read :
    (run { username := none, password := none } 5000
        (([utf8 (js "220 caf"), [0xC3, 0xA9, 0x0D, 0x0A]] : List (List UInt8)).map Event.data ++
          [Ending.close].map Event.ended)).said =
      (run { username := none, password := none } 5000
        (([utf8 (js "220 caf") ++ [0xC3], [0xA9, 0x0D, 0x0A]] : List (List UInt8)).map Event.data ++
          [Ending.close].map Event.ended)).said :=
  (cuts_never_garble_the_parse { username := none, password := none } 5000 (by decide) (by decide)
    [.close]).1

/-! ### What is said -/

/-- What was said after some replies, as long as nothing was measured. -/
inductive Said (config : FtpConfig) : List FtpReply → List Command → Prop
  | nothing : Said config [] []
  | feat {greeting : FtpReply} (hready : greeting.code = some 220) :
    Said config [greeting] [.feat]
  | user {greeting features : FtpReply} {username : JsString} (hready : greeting.code = some 220)
    (husername : config.username = some username) :
    Said config [greeting, features] [.feat, .user username]
  | pass {greeting features asked : FtpReply} {username password : JsString}
    (hready : greeting.code = some 220) (husername : config.username = some username)
    (hasked : asked.code = some 331) (hpassword : config.password = some password) :
    Said config [greeting, features, asked] [.feat, .user username, .pass password]

/-- The phase in which the next reply is heard. -/
def phaseAfter : List FtpReply → Phase
  | [] => .greeting
  | [_] => .feat
  | [_, _] => .user
  | _ => .pass

/-- What was said is in order, and `QUIT` is the last of it. -/
def InOrder (config : FtpConfig) (heard : List FtpReply) (said : List Command) : Prop :=
  ∃ before after spoken, heard = before ++ after ∧ Said config before spoken ∧
    (said = spoken ∨ said = spoken ++ [.quit])

def Kept (config : FtpConfig) (s : Session JsString) (heard : List FtpReply)
    (said : List Command) : Prop :=
  InOrder config heard said ∧
    (s.settled.isSome = false → Said config heard said ∧ s.phase = phaseAfter heard)

theorem kept_of_said (h : Said config heard said) (hphase : s.phase = phaseAfter heard) :
    Kept config s heard said :=
  ⟨⟨heard, [], said, (List.append_nil heard).symm, h, .inl rfl⟩, fun _ => ⟨h, hphase⟩⟩

theorem kept_of_measured (h : Said config heard said) (reply : FtpReply)
    (facts : FactBag JsString) :
    Kept config (measured s facts).1 (heard ++ [reply]) (said ++ (measured s facts).2) :=
  ⟨⟨heard, [reply], said, rfl, h, .inr rfl⟩, fun hsettled => absurd hsettled nofun⟩

theorem kept_answer (h : Said config heard said) (hphase : s.phase = phaseAfter heard)
    (reply : FtpReply) : Kept config (answer config s reply).1 (heard ++ [reply])
      (said ++ (answer config s reply).2) := by
  unfold answer
  cases h with
  | nothing =>
    rw [hphase]
    dsimp only [phaseAfter]
    split
    · rename_i hready
      exact kept_of_said (.feat hready) rfl
    · exact kept_of_measured .nothing reply _
  | feat hready =>
    rw [hphase]
    dsimp only [phaseAfter]
    split
    · exact kept_of_measured (.feat hready) reply _
    · rename_i username husername
      exact kept_of_said (.user hready husername) rfl
  | user hready husername =>
    rw [hphase]
    dsimp only [phaseAfter]
    split
    · rename_i password hpassword
      split
      · rename_i hasked
        exact kept_of_said (.pass hready husername hasked hpassword) rfl
      · exact kept_of_measured (.user hready husername) reply _
    · exact kept_of_measured (.user hready husername) reply _
  | pass hready husername hasked hpassword =>
    rw [hphase]
    exact kept_of_measured (.pass hready husername hasked hpassword) reply _

theorem kept_failed {t : Conversation} (h : Kept config t.state t.heard t.said) (error : JsString) :
    Kept config (t.state.failed error) t.heard t.said := by
  refine ⟨h.1, fun hsettled => absurd hsettled ?_⟩
  show ¬(t.state.settled <|> some (ProbeResult.failed error)).isSome = false
  cases t.state.settled with
  | none => exact Bool.noConfusion
  | some result => exact Bool.noConfusion

theorem kept_step {t : Conversation} (h : Kept config t.state t.heard t.said) (event : Event) :
    Kept config (step config timeoutMs t event).state (step config timeoutMs t event).heard
      (step config timeoutMs t event).said := by
  cases event with
  | data chunk =>
    simp only [step]
    split
    · exact kept_failed h _
    · apply pump_induct (P := Kept config)
      · exact h
      · intro s heard said reply hkept hgoing
        obtain ⟨hsaid, hphase⟩ := hkept.2 hgoing
        exact kept_answer hsaid hphase reply
  | ended ending =>
    cases ending with
    | timeout => exact kept_failed h _
    | error message => exact kept_failed h message
    | close => exact kept_failed h _

theorem kept_run (events : List Event) {t : Conversation} (h : Kept config t.state t.heard t.said) :
    Kept config (events.foldl (step config timeoutMs) t).state
      (events.foldl (step config timeoutMs) t).heard
      (events.foldl (step config timeoutMs) t).said := by
  induction events generalizing t with
  | nil => exact h
  | cons event events ih => exact ih (kept_step h event)

/-- Whatever a server sends, in whatever reads, and however the connection ends: the account is told
after a greeting of 220, the password after an answer of 331 to it, and nothing after `QUIT`. -/
theorem password_only_after_331 (config : FtpConfig) (timeoutMs : ℕ) (events : List Event) :
    InOrder config (run config timeoutMs events).heard (run config timeoutMs events).said := by
  have hstart : Kept config start.state start.heard start.said := kept_of_said .nothing rfl
  exact (kept_run events hstart).1

end Vigil.Wire.Ftp
