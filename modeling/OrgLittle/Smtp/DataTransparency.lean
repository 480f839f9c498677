import OrgLittle.Smtp.CommandHandler

/-!
# Mail text: what a dot-stuffed body becomes

A conforming client puts one more dot in front of every line that starts with a dot and ends the text
with the line `"."`. The handler removes that dot again and only then asks whether a single dot is
left, so the stuffed line `".."` ends the text as well. `dataTransparent_iff` is the resulting law:
a body arrives unchanged exactly if none of its lines is a single dot.
-/

namespace OrgLittle.Smtp

open OrgLittle.Java

/-- What the client sends for one line of the body. -/
def stuff (line : List UInt8) : List UInt8 :=
  if line.head? = some DOT then DOT :: line else line

/-- The lines that the client sends for a body, without the final dot. -/
def stuffed (body : List Line) : List Line := body.map fun l => { l with frame := stuff l.frame }

/-! ## One line -/

theorem unstuff_stuff (line : List UInt8) : unstuff (stuff line) = line := by
  by_cases h : line.head? = some DOT
  · obtain ⟨rest, rfl⟩ : ∃ rest, line = DOT :: rest := by
      cases line with
      | nil => simp at h
      | cons b rest => simp only [List.head?_cons, Option.some.injEq] at h; exact ⟨rest, by rw [h]⟩
    simp [stuff, unstuff]
  · simp [stuff, unstuff, h]

/-! ## The whole body -/

/-- A body none of whose lines is a single dot is stored line by line. -/
theorem run_stuffed (cfg : CommonSMTP) (s : SmtpSessionContext) (mailTx : SmtpMailTransaction)
    (parameters : List JString) (body : List Line) (h : ∀ l ∈ body, l.frame ≠ [DOT]) :
    (handler cfg).run (inData s mailTx parameters) (stuffed body)
      = inData s mailTx (parameters ++ body.map fun l => storedLine cfg l.frame) := by
  induction body generalizing parameters with
  | nil => simp [stuffed]
  | cons l body ih =>
    have hl : unstuff (stuff l.frame) ≠ [DOT] := by
      rw [unstuff_stuff]
      exact h l (by simp)
    have hstep : ((handler cfg).step (inData s mailTx parameters) ⟨l.env, stuff l.frame⟩).1
        = inData s mailTx (parameters ++ [storedLine cfg l.frame]) := by
      simp only [handler, channelRead_text cfg l.env s mailTx parameters _ hl, unstuff_stuff]
    have hrest := ih (parameters ++ [storedLine cfg l.frame]) fun l' hl' => h l' (by simp [hl'])
    rw [stuffed, List.map_cons, Lib.Machine.run_cons, hstep, List.map_cons]
    rw [stuffed] at hrest
    rw [hrest, List.append_assoc, List.singleton_append]

/-- Transparency of the text of one mail: no line before the final dot ends the transaction, the lines
are then stored as they were, and the final dot ends the transaction. -/
structure DataTransparent (cfg : CommonSMTP) (s : SmtpSessionContext) (mailTx : SmtpMailTransaction)
    (body : List Line) (env : Env) : Prop where
  unfinished : ∀ k ≤ body.length,
    ((handler cfg).run (inData s mailTx []) ((stuffed body).take k)).mailContent ≠ none
  stored : ((handler cfg).run (inData s mailTx []) (stuffed body)).mailContent.map
    Content.parameters = some (body.map fun l => storedLine cfg l.frame)
  finished : ((handler cfg).run (inData s mailTx []) (stuffed body ++ [⟨env, [DOT]⟩])).mailTransaction
    = none

/-- A transaction that is not ended early has met no line that is a single dot. -/
theorem frame_ne_dot_of_unfinished (cfg : CommonSMTP) (s : SmtpSessionContext)
    (mailTx : SmtpMailTransaction) (parameters : List JString) (body : List Line)
    (h : ∀ k ≤ body.length,
      ((handler cfg).run (inData s mailTx parameters) ((stuffed body).take k)).mailContent ≠ none) :
    ∀ l ∈ body, l.frame ≠ [DOT] := by
  induction body generalizing parameters with
  | nil => simp
  | cons l body ih =>
    have hl : l.frame ≠ [DOT] := by
      intro hdot
      have hend := channelRead_end cfg l.env s mailTx parameters (stuff l.frame)
        (by rw [unstuff_stuff, hdot])
      refine h 1 (by simp) ?_
      show ((channelRead cfg l.env (inData s mailTx parameters) (stuff l.frame)).session).mailContent
        = none
      rw [hend]
      rfl
    have hstep := channelRead_text cfg l.env s mailTx parameters (stuff l.frame)
      (by rw [unstuff_stuff]; exact hl)
    have hrest := ih (parameters ++ [storedLine cfg (unstuff (stuff l.frame))]) (by
      intro k hk
      have hk' := h (k + 1) (by simpa using hk)
      simpa only [stuffed, List.map_cons, List.take_succ_cons, Lib.Machine.run_cons, handler, hstep]
        using hk')
    intro l' hl'
    rcases List.mem_cons.mp hl' with rfl | hmem
    · exact hl
    · exact hrest l' hmem

/-- A mail text reaches the content unchanged if and only if none of its lines is a single dot. -/
theorem dataTransparent_iff (cfg : CommonSMTP) (s : SmtpSessionContext) (mailTx : SmtpMailTransaction)
    (body : List Line) (env : Env) :
    DataTransparent cfg s mailTx body env ↔ ∀ l ∈ body, l.frame ≠ [DOT] := by
  constructor
  · intro htrans
    exact frame_ne_dot_of_unfinished cfg s mailTx [] body htrans.unfinished
  · intro hbody
    refine ⟨?_, ?_, ?_⟩
    · intro k _
      have htake : (stuffed body).take k = stuffed (body.take k) := by simp [stuffed]
      rw [htake, run_stuffed cfg s mailTx [] _ fun l hl => hbody l (List.mem_of_mem_take hl)]
      simp
    · simp [run_stuffed cfg s mailTx [] body hbody]
    · rw [Lib.Machine.run_append, run_stuffed cfg s mailTx [] body hbody]
      exact congrArg SmtpSessionContext.mailTransaction
        (channelRead_end cfg env s mailTx _ [DOT] (by decide))

/-- The body of the single line `"."`: its stuffed form `".."` ends the transaction one line early. -/
theorem dataTransparent_single_dot :
    ¬ DataTransparent CommonSMTP.stub (SmtpSessionContext.channelActive CommonSMTP.stub)
      SmtpMailTransaction.new [⟨Env.stub, [DOT]⟩] Env.stub :=
  fun h => h.unfinished 1 (by decide) rfl

end OrgLittle.Smtp
