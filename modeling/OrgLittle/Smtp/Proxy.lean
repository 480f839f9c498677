import OrgLittle.Smtp.DataTransparency

/-!
# The proxy: what the backend receives

In proxy mode the handler writes the collected mail text to the backend's channel as one `LASTCONTENT`
request, and `SmtpClnRequestEncoder` turns it into bytes. The encoder writes the stored lines and a final
dot; it does not stuff the lines again, and it writes characters where the client sent bytes.
`proxyTransparent_iff` says for which bodies the backend still gets what the client sent.
-/

namespace OrgLittle.Smtp

open OrgLittle.Java

/-! ## `SmtpClnRequestEncoder` -/

/-- `SmtpCommand.encode`. -/
def SmtpCommand.encode (command : SmtpCommand) : List UInt8 :=
  let name := command.getName
  if name ≠ [] ∧ name ≠ "LASTCONTENT".toList ∧ name ≠ "CONTENT".toList then writeAscii name else []

/-- `writeParameters` for a command line: the parameters are separated by spaces. -/
def writeParameters (parameters : List JString) (commandNotEmpty : Bool) : List UInt8 :=
  if parameters.isEmpty then []
  else (if commandNotEmpty then [SP] else []) ++ [SP].intercalate (parameters.map writeAscii)

/-- `writeParameters` for mail text: one parameter after the other. -/
def writeContent (parameters : List JString) : List UInt8 := parameters.flatMap writeAscii

/-- `SmtpClnRequestEncoder.encode`. -/
def SmtpClnRequestEncoder.encode (req : SmtpRequest) : List UInt8 :=
  let isContent := req.command = .CONTENT ∨ req.command = .LASTCONTENT
  req.command.encode ++
    if isContent then
      writeContent req.parameters ++ if req.command = .LASTCONTENT then DOT :: CRLF else []
    else writeParameters req.parameters (req.command ≠ .EMPTY) ++ CRLF

/-- The bytes of the lines of a mail text. -/
def wire (lines : List Line) : List UInt8 := lines.flatMap fun l => l.frame ++ CRLF

/-- The handler passes the body on: nothing is written before its final dot, and the request written
then reaches the backend as the bytes that the client sent. -/
structure ProxyTransparent (cfg : CommonSMTP) (s : SmtpSessionContext) (mailTx : SmtpMailTransaction)
    (body : List Line) (env : Env) : Prop where
  collected : (handler cfg).outputs (inData s mailTx []) (stuffed body) = []
  forwarded : ∃ req, (handler cfg).outputs (inData s mailTx []) (stuffed body ++ [⟨env, [DOT]⟩])
      = [.backend req]
    ∧ SmtpClnRequestEncoder.encode req = wire (stuffed body) ++ DOT :: CRLF

/-- The line's bytes are the same after decoding and writing as ASCII. -/
def survivesCharset (cfg : CommonSMTP) (line : List UInt8) : Bool :=
  writeAscii (storedLine cfg line) = line ++ CRLF

/-- An ASCII line survives with every charset. -/
theorem survivesCharset_of_isAscii (cfg : CommonSMTP) {line : List UInt8} (h : IsAscii line) :
    survivesCharset cfg line = true := by
  have hline : IsAscii (line ++ CRLF) := h.append isAscii_CRLF
  rw [survivesCharset, storedLine, cfg.charset.decode_ascii _ hline, writeAscii_asciiString]
  exact decide_eq_true rfl

theorem encode_lastContent (parameters : List JString) :
    SmtpClnRequestEncoder.encode ⟨.LASTCONTENT, parameters⟩
      = writeContent parameters ++ DOT :: CRLF := by
  have hname : SmtpCommand.LASTCONTENT.encode = [] := by decide
  simp only [SmtpClnRequestEncoder.encode, hname, or_true, if_true, List.nil_append]

/-! ## What the handler sends -/

/-- Text lines cause no output. -/
theorem outputs_stuffed (cfg : CommonSMTP) (s : SmtpSessionContext) (mailTx : SmtpMailTransaction)
    (parameters : List JString) (body : List Line) (h : ∀ l ∈ body, l.frame ≠ [DOT]) :
    (handler cfg).outputs (inData s mailTx parameters) (stuffed body) = [] := by
  induction body generalizing parameters with
  | nil => rfl
  | cons l body ih =>
    have hl : unstuff (stuff l.frame) ≠ [DOT] := by
      rw [unstuff_stuff]
      exact h l (by simp)
    have hstep := channelRead_text cfg l.env s mailTx parameters (stuff l.frame) hl
    have hrest := ih (parameters ++ [storedLine cfg (unstuff (stuff l.frame))])
      fun l' hl' => h l' (by simp [hl'])
    rw [stuffed] at hrest
    simp only [stuffed, List.map_cons, Lib.Machine.outputs_cons, handler, hstep, List.nil_append]
    exact hrest

/-- The final dot in proxy mode: the content goes to the backend if the filter accepts it. -/
theorem channelRead_end_proxy {cfg : CommonSMTP} (hproxy : cfg.isProxy = true) (env : Env)
    {s : SmtpSessionContext} (hclient : s.client = true) (mailTx : SmtpMailTransaction)
    (parameters : List JString) (frame : List UInt8) (h : unstuff frame = [DOT]) :
    (channelRead cfg env (inData s mailTx parameters) frame).events
      = match Content.filterCommand cfg env parameters with
        | none => [.backend ⟨.LASTCONTENT, parameters⟩]
        | some reply => [.reply reply] := by
  have hdot := (isDot_iff (unstuff frame)).mpr h
  rw [channelRead_inData]
  cases hfilter : Content.filterCommand cfg env parameters with
  | none =>
    simp only [channelReadContext, inData, if_pos hdot, hproxy, hclient, Content.request,
      SmtpRequest.filterCommand, hfilter, Bool.true_eq_false, if_false, if_true]
  | some reply =>
    simp only [channelReadContext, inData, if_pos hdot, hproxy, hclient, Content.request,
      SmtpRequest.filterCommand, hfilter, Bool.true_eq_false, if_false, if_true]

/-- Nothing is written before the final dot exactly if no line of the body is a single dot. -/
theorem outputs_stuffed_eq_nil_iff {cfg : CommonSMTP} (hproxy : cfg.isProxy = true)
    {s : SmtpSessionContext} (hclient : s.client = true) (mailTx : SmtpMailTransaction)
    (parameters : List JString) (body : List Line) :
    (handler cfg).outputs (inData s mailTx parameters) (stuffed body) = []
      ↔ ∀ l ∈ body, l.frame ≠ [DOT] := by
  refine ⟨fun hout => ?_, outputs_stuffed cfg s mailTx parameters body⟩
  induction body generalizing parameters with
  | nil => simp
  | cons l body ih =>
    rw [stuffed, List.map_cons, Lib.Machine.outputs_cons, List.append_eq_nil_iff] at hout
    obtain ⟨hfirst, hrest⟩ := hout
    have hl : l.frame ≠ [DOT] := by
      intro hdot
      have hend := channelRead_end_proxy hproxy l.env hclient mailTx parameters
        (stuff l.frame) (by rw [unstuff_stuff, hdot])
      simp only [handler, hend] at hfirst
      cases hfilter : Content.filterCommand cfg l.env parameters <;> simp [hfilter] at hfirst
    have hstep := channelRead_text cfg l.env s mailTx parameters (stuff l.frame)
      (by rw [unstuff_stuff]; exact hl)
    simp only [handler, hstep] at hrest
    have hbody := ih _ hrest
    intro l' hl'
    rcases List.mem_cons.mp hl' with rfl | hmem
    · exact hl
    · exact hbody l' hmem

/-- A body without a single-dot line is sent to the backend as one request. -/
theorem outputs_body {cfg : CommonSMTP} (hproxy : cfg.isProxy = true) {s : SmtpSessionContext}
    (hclient : s.client = true) (mailTx : SmtpMailTransaction) {body : List Line} {env : Env}
    (hfilter : Content.filterCommand cfg env (body.map fun l => storedLine cfg l.frame) = none)
    (h : ∀ l ∈ body, l.frame ≠ [DOT]) :
    (handler cfg).outputs (inData s mailTx []) (stuffed body ++ [⟨env, [DOT]⟩])
      = [.backend ⟨.LASTCONTENT, body.map fun l => storedLine cfg l.frame⟩] := by
  have hend := channelRead_end_proxy hproxy env hclient mailTx
    (body.map fun l => storedLine cfg l.frame) [DOT] (by decide)
  rw [hfilter] at hend
  rw [Lib.Machine.outputs_append, outputs_stuffed cfg s mailTx [] body h,
    run_stuffed cfg s mailTx [] body h]
  simp only [List.nil_append, Lib.Machine.outputs_cons, Lib.Machine.outputs_nil, handler, hend,
    List.append_nil]

/-! ## Blocks of bytes -/

/-- Two concatenations of blocks, none of the first longer than its counterpart, agree only block by
block. -/
theorem flatMap_eq_iff_of_length_le {α β : Type*} {f g : α → List β} {l : List α}
    (h : ∀ a ∈ l, (f a).length ≤ (g a).length) :
    l.flatMap f = l.flatMap g ↔ ∀ a ∈ l, f a = g a := by
  refine ⟨fun heq => ?_, List.flatMap_congr⟩
  induction l with
  | nil => simp
  | cons a l ih =>
    have hhead : (f a).length ≤ (g a).length := h a (by simp)
    have htail : (l.flatMap f).length ≤ (l.flatMap g).length := by
      rw [List.length_flatMap, List.length_flatMap]
      exact List.sum_le_sum fun b hb => h b (by simp [hb])
    rw [List.flatMap_cons, List.flatMap_cons] at heq
    have hlen := congrArg List.length heq
    rw [List.length_append, List.length_append] at hlen
    obtain ⟨ha, hl⟩ := List.append_inj heq (by omega)
    have hrest := ih (fun b hb => h b (by simp [hb])) hl
    intro b hb
    rcases List.mem_cons.mp hb with rfl | hmem
    · exact ha
    · exact hrest b hmem

/-- What is written for a line is what the client sent exactly if the line has no leading dot and
survives the charset. -/
theorem writeAscii_storedLine_eq_iff (cfg : CommonSMTP) (line : List UInt8) :
    writeAscii (storedLine cfg line) = stuff line ++ CRLF
      ↔ line.head? ≠ some DOT ∧ survivesCharset cfg line = true := by
  have hlen := cfg.charset.length_decode_le (line ++ CRLF)
  by_cases hdot : line.head? = some DOT
  · refine ⟨fun heq => ?_, fun h => absurd hdot h.1⟩
    have hlong := congrArg List.length heq
    rw [stuff, if_pos hdot, storedLine] at hlong
    simp only [List.length_append, List.length_cons] at hlen hlong
    omega
  · simp [stuff, hdot, survivesCharset]

/-! ## The whole body -/

/-- In proxy mode, with a backend and a content that the filter accepts, the backend receives what the
client sent if and only if no line of the body starts with a dot and every line survives the charset. -/
theorem proxyTransparent_iff {cfg : CommonSMTP} (hproxy : cfg.isProxy = true)
    {s : SmtpSessionContext} (hclient : s.client = true) (mailTx : SmtpMailTransaction)
    (body : List Line) (env : Env)
    (hfilter : Content.filterCommand cfg env (body.map fun l => storedLine cfg l.frame) = none) :
    ProxyTransparent cfg s mailTx body env
      ↔ ∀ l ∈ body, l.frame.head? ≠ some DOT ∧ survivesCharset cfg l.frame = true := by
  have hblocks : ∀ l ∈ body,
      (writeAscii (storedLine cfg l.frame)).length ≤ (stuff l.frame ++ CRLF).length := by
    intro l _
    have hlen := cfg.charset.length_decode_le (l.frame ++ CRLF)
    have hstuff : l.frame.length ≤ (stuff l.frame).length := by
      unfold stuff
      split_ifs <;> simp
    rw [storedLine]
    rw [List.length_append] at hlen ⊢
    omega
  have hbytes : writeContent (body.map fun l => storedLine cfg l.frame) = wire (stuffed body)
      ↔ ∀ l ∈ body, l.frame.head? ≠ some DOT ∧ survivesCharset cfg l.frame = true := by
    have hiff := flatMap_eq_iff_of_length_le hblocks
    simp only [writeAscii_storedLine_eq_iff] at hiff
    rw [← hiff, writeContent, wire, stuffed, List.flatMap_map, List.flatMap_map]
  constructor
  · rintro ⟨hcollected, req, hout, henc⟩
    have hbody := (outputs_stuffed_eq_nil_iff hproxy hclient mailTx [] body).mp hcollected
    rw [outputs_body hproxy hclient mailTx hfilter hbody] at hout
    simp only [List.cons.injEq, Event.backend.injEq, and_true] at hout
    rw [← hout, encode_lastContent] at henc
    exact hbytes.mp (List.append_cancel_right henc)
  · intro h
    have hbody : ∀ l ∈ body, l.frame ≠ [DOT] := by
      intro l hl hdot
      exact (h l hl).1 (by rw [hdot]; rfl)
    refine ⟨outputs_stuffed cfg s mailTx [] body hbody, _,
      outputs_body hproxy hclient mailTx hfilter hbody, ?_⟩
    rw [encode_lastContent, hbytes.mpr h]

/-- A proxy with one backend, on a platform whose charset is ISO-8859-1. -/
def CommonSMTP.proxy : CommonSMTP := ⟨true, true, Charset.latin1⟩

/-- A mail without leading dots is passed on. -/
theorem proxyTransparent_hello :
    ProxyTransparent .proxy (.channelActive .proxy) .new
      [.ofString "Subject: x", .ofString "", .ofString "Hello"] .stub :=
  (proxyTransparent_iff rfl rfl .new _ .stub rfl).mpr (by decide)

/-- The body line `".hidden"` reaches the backend without its second dot. -/
theorem proxyTransparent_leading_dot :
    ¬ ProxyTransparent .proxy (.channelActive .proxy) .new [.ofString ".hidden"] .stub := by
  rintro ⟨-, req, hout, henc⟩
  have hreq : req = ⟨.LASTCONTENT, [".hidden\r\n".toList]⟩ := by
    have houts : (handler .proxy).outputs (inData (.channelActive .proxy) .new [])
        (stuffed [.ofString ".hidden"] ++ [⟨.stub, [DOT]⟩])
        = [.backend ⟨.LASTCONTENT, [".hidden\r\n".toList]⟩] := by decide
    rw [houts] at hout
    simpa using hout.symm
  rw [hreq] at henc
  exact absurd henc (by decide)

end OrgLittle.Smtp
