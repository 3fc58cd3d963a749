/-
How long `ParseRequest` can run and how much it can take: every pass that goes
on takes a line with it, and no retrieval reaches beyond the readable bytes.
-/
import CuteHttpServer.ParseCalls

namespace CuteHttpServer

open ByteString DelimitedText

/-- A call of `Retrieve` or `RetrieveUntil`: the bytes it takes, and those that
were readable. -/
structure Retrieval where
  length : Nat
  readable : Nat
deriving DecidableEq

/-- A buffer that notes what is retrieved from it. -/
structure WatchedBuffer (B : Type) where
  buffer : B
  retrievals : List Retrieval

instance {B : Type} [Buffer B] : Buffer (WatchedBuffer B) where
  empty := ⟨Buffer.empty, []⟩
  readable watched := Buffer.readable watched.buffer
  findCRLF watched := Buffer.findCRLF watched.buffer
  retrieve watched n :=
    ⟨Buffer.retrieve watched.buffer n,
      watched.retrievals ++ [⟨n, (Buffer.readable watched.buffer).length⟩]⟩
  append watched text := ⟨Buffer.append watched.buffer text, watched.retrievals⟩
  readable_empty := Buffer.readable_empty
  findCRLF_eq watched := Buffer.findCRLF_eq watched.buffer
  readable_retrieve watched := Buffer.readable_retrieve watched.buffer
  readable_append watched := Buffer.readable_append watched.buffer

/-- Noting the retrievals changes nothing else. -/
def WatchedBuffer.unwatched (B : Type) [Buffer B] : Buffer.View (WatchedBuffer B) B where
  see := WatchedBuffer.buffer
  readable_see _ := rfl
  see_retrieve _ _ _ := rfl

/-- No retrieval takes more than there was. -/
def WatchedBuffer.InBounds {B : Type} (watched : WatchedBuffer B) : Prop :=
  ∀ retrieval ∈ watched.retrievals, retrieval.length ≤ retrieval.readable

theorem WatchedBuffer.InBounds.retrieve {B : Type} [Buffer B] {watched : WatchedBuffer B}
    (h : watched.InBounds) {n : Nat} (hn : n ≤ (Buffer.readable watched).length) :
    (Buffer.retrieve watched n).InBounds := by
  intro retrieval hmem
  rcases List.mem_append.mp hmem with hold | hnew
  · exact h retrieval hold
  · rw [List.mem_singleton.mp hnew]
    exact hn

namespace HttpContext

section Watched

variable {B : Type} [Buffer B] (context : HttpContext) (receiveTime : Timestamp)

/-- A line ends inside the readable bytes, and a body is taken only when all of
it is there, whatever its length. -/
theorem parsePass_inBounds {watched : WatchedBuffer B} (h : watched.InBounds) :
    (context.parsePass watched receiveTime).buffer.InBounds := by
  have hline : ∀ crlf, Buffer.findCRLF watched = some crlf →
      (Buffer.retrieve watched (crlf + 2)).InBounds := by
    intro crlf hfind
    rw [Buffer.findCRLF_eq] at hfind
    exact h.retrieve (findPair_add_two_le hfind)
  unfold parsePass
  cases context.state with
  | requestLine =>
      cases hfind : Buffer.findCRLF watched with
      | none => exact h
      | some crlf =>
          simp only [buffer_takeRequestLine]
          exact hline crlf hfind
  | headers =>
      cases hfind : Buffer.findCRLF watched with
      | none => exact h
      | some crlf =>
          simp only [buffer_takeHeaderLine]
          exact hline crlf hfind
  | body =>
      by_cases hlength : context.request.getContentLength.toNat ≤
          (Buffer.readable watched).length
      · simp only [if_pos hlength]
        exact h.retrieve hlength
      · simp only [if_neg hlength]
        exact h
  | finish => exact h

theorem parseRequest_inBounds {watched : WatchedBuffer B} (h : watched.InBounds) :
    (context.parseRequest watched receiveTime).buffer.InBounds := by
  revert h
  refine parseRequest_induction receiveTime context watched ?_
  intro context watched ih h
  have hbounds := parsePass_inBounds context receiveTime h
  rw [parseRequest_eq]
  cases hpass : context.parsePass watched receiveTime with
  | done result =>
      rw [hpass] at hbounds
      exact hbounds
  | again context' watched' =>
      rw [hpass] at hbounds
      exact ih context' watched' hpass hbounds

end Watched

/-- Whole lines and at most a whole body: all that a call ever takes off its
buffer.  With a body, the request is complete. -/
def TakesWhole (before : Bytes) (result : ParseResult Bytes) : Prop :=
  ∃ (lines : List Bytes) (body : Bytes), (∀ line ∈ lines, CrlfFree line) ∧
    before = withCrlf lines ++ (body ++ result.buffer) ∧
    (body = [] ∨ result.outcome = .returned true ∧ result.context.state = .finish ∧
      body.length = result.context.request.getContentLength.toNat)

theorem TakesWhole.nothing (result : ParseResult Bytes) : TakesWhole result.buffer result :=
  ⟨[], [], fun _ hline => absurd hline List.not_mem_nil, rfl, Or.inl rfl⟩

theorem TakesWhole.line {line before : Bytes} {result : ParseResult Bytes}
    (hline : CrlfFree line) (h : TakesWhole before result) :
    TakesWhole (line ++ CR :: LF :: before) result := by
  obtain ⟨lines, body, hlines, rfl, hbody⟩ := h
  refine ⟨line :: lines, body, List.forall_mem_cons.mpr ⟨hline, hlines⟩, ?_, hbody⟩
  simp [withCrlf]

theorem TakesWhole.suffix {before : Bytes} {result : ParseResult Bytes}
    (h : TakesWhole before result) : result.buffer <:+ before := by
  obtain ⟨lines, body, _, rfl, _⟩ := h
  exact (List.suffix_append body _).trans (List.suffix_append _ _)

/-- The same for one pass; one that goes on takes a line. -/
def PassTakesWhole (before : Bytes) : Pass Bytes → Prop
  | .done result => TakesWhole before result
  | .again _ buffer => ∃ line, CrlfFree line ∧ before = line ++ CR :: LF :: buffer

section Bounds

variable {B : Type} [Buffer B] (context : HttpContext) (receiveTime : Timestamp)

/-- One pass takes nothing, a line with its end, or the whole body. -/
theorem parsePass_takes (buff : Bytes) :
    PassTakesWhole buff (context.parsePass buff receiveTime) := by
  by_cases hlacks : context.LacksData buff
  · rw [parsePass_of_lacksData hlacks]
    exact TakesWhole.nothing ⟨.returned false, context, buff⟩
  rcases ready_cases hlacks with ⟨hstate, line, rest, hline, rfl⟩ |
    ⟨hstate, body, rest, hbody, rfl⟩ | hstate
  · have hbuffer : (context.parsePass (line ++ CR :: LF :: rest) receiveTime).buffer =
        rest := by
      rcases hstate with hstate | hstate
      · rw [parsePass_requestLine hstate hline, buffer_takeRequestLine]
      · rw [parsePass_headerLine hstate hline, buffer_takeHeaderLine]
    cases hpass : context.parsePass (line ++ CR :: LF :: rest) receiveTime with
    | done result =>
        rw [hpass, Pass.buffer_done] at hbuffer
        subst hbuffer
        exact (TakesWhole.nothing result).line hline
    | again context' buff' =>
        rw [hpass, Pass.buffer_again] at hbuffer
        exact ⟨line, hline, by rw [hbuffer]⟩
  · rw [parsePass_body hstate hbody]
    exact ⟨[], body, fun _ hline => absurd hline List.not_mem_nil, rfl,
      Or.inr ⟨rfl, rfl, hbody⟩⟩
  · rw [parsePass_finish hstate]
    exact TakesWhole.nothing ⟨.returned true, context, buff⟩

theorem parseRequest_takes (buff : Bytes) :
    TakesWhole buff (context.parseRequest buff receiveTime) := by
  refine parseRequest_induction receiveTime context buff ?_
  intro context buff ih
  have htakes := parsePass_takes context receiveTime buff
  rw [parseRequest_eq]
  cases hpass : context.parsePass buff receiveTime with
  | done result =>
      rw [hpass] at htakes
      exact htakes
  | again context' buff' =>
      rw [hpass] at htakes
      obtain ⟨line, hline, hbuff⟩ := htakes
      have hrest := (ih context' buff' hpass).line hline
      rwa [← hbuff] at hrest

/-- The line that a pass takes which goes on. -/
theorem parsePass_again_line {context context' : HttpContext} {buff buff' : B}
    {receiveTime : Timestamp}
    (h : context.parsePass buff receiveTime = .again context' buff') :
    ∃ line, CrlfFree line ∧
      Buffer.readable buff = line ++ CR :: LF :: Buffer.readable buff' := by
  have htakes := parsePass_takes context receiveTime (Buffer.readable buff)
  rw [← parsePass_readable, h] at htakes
  exact htakes

/-- One pass for each line that is there, and one more. -/
theorem parseLoop_isSome_of_pairCount {fuel : Nat} {context : HttpContext} {buff : B}
    (hfuel : pairCount CR LF (Buffer.readable buff) < fuel) :
    (parseLoop receiveTime fuel context buff).isSome := by
  induction fuel generalizing context buff with
  | zero => exact absurd hfuel (Nat.not_lt_zero _)
  | succ fuel ih =>
      rw [parseLoop]
      cases hpass : context.parsePass buff receiveTime with
      | done result => rfl
      | again context' buff' =>
          obtain ⟨line, _, hbuff⟩ := parsePass_again_line hpass
          have hfewer := pairCount_lt_append CR LF line (Buffer.readable buff')
          rw [← hbuff] at hfewer
          exact ih (by omega)

/-- However many passes are allowed, a loop that ends is the call. -/
theorem parseLoop_eq_parseRequest {fuel : Nat} {context : HttpContext} {buff : B}
    (h : (parseLoop receiveTime fuel context buff).isSome) :
    parseLoop receiveTime fuel context buff =
      some (context.parseRequest buff receiveTime) := by
  obtain ⟨result, hresult⟩ := Option.isSome_iff_exists.mp h
  have hall : parseLoop receiveTime ((Buffer.readable buff).length + 1) context buff =
      some (context.parseRequest buff receiveTime) := (Option.some_get _).symm
  have hmore := parseLoop_mono receiveTime hresult
    (Nat.le_max_left fuel ((Buffer.readable buff).length + 1))
  rw [parseLoop_mono receiveTime hall (Nat.le_max_right fuel _)] at hmore
  rw [hresult, ← hmore]

theorem parseRequest_of_lacksData {buff : B} (h : context.LacksData buff) :
    context.parseRequest buff receiveTime = ⟨.returned false, context, buff⟩ := by
  rw [parseRequest_eq, parsePass_of_lacksData h]

end Bounds

/-- What a call promises about its buffer: it ends after at most two passes more
than there are line ends, no retrieval goes beyond what is there, what remains
is the end of what was there, and only whole lines and a whole body are gone. -/
structure StaysWithin {B : Type} [Buffer B] (context : HttpContext) (buff : B)
    (receiveTime : Timestamp) : Prop where
  ends : parseLoop receiveTime (pairCount CR LF (Buffer.readable buff) + 2) context buff =
    some (context.parseRequest buff receiveTime)
  watched : context.parseRequest buff receiveTime =
    ⟨(context.parseRequest (WatchedBuffer.mk buff []) receiveTime).outcome,
      (context.parseRequest (WatchedBuffer.mk buff []) receiveTime).context,
      (context.parseRequest (WatchedBuffer.mk buff []) receiveTime).buffer.buffer⟩
  inBounds : (context.parseRequest (WatchedBuffer.mk buff []) receiveTime).buffer.InBounds
  suffix : Buffer.readable (context.parseRequest buff receiveTime).buffer <:+
    Buffer.readable buff
  whole : TakesWhole (Buffer.readable buff)
    ⟨(context.parseRequest buff receiveTime).outcome,
      (context.parseRequest buff receiveTime).context,
      Buffer.readable (context.parseRequest buff receiveTime).buffer⟩
  untouched : context.LacksData buff →
    context.parseRequest buff receiveTime = ⟨.returned false, context, buff⟩

/-- Every call keeps the promise, in every state and with every request. -/
theorem parseRequest_staysWithin {B : Type} [Buffer B] (context : HttpContext) (buff : B)
    (receiveTime : Timestamp) : StaysWithin context buff receiveTime := by
  have hwhole := parseRequest_takes context receiveTime (Buffer.readable buff)
  rw [parseRequest_readable] at hwhole
  exact
    { ends := parseLoop_eq_parseRequest receiveTime
        (parseLoop_isSome_of_pairCount receiveTime (by omega))
      watched := parseRequest_see (WatchedBuffer.unwatched B) context ⟨buff, []⟩ receiveTime
      inBounds := parseRequest_inBounds context receiveTime
        fun _ hmem => absurd hmem List.not_mem_nil
      suffix := hwhole.suffix
      whole := hwhole
      untouched := parseRequest_of_lacksData context receiveTime }

end HttpContext

end CuteHttpServer
