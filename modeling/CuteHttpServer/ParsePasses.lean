/-
The passes of the parser on a plain byte list: what each state does with the
first line or the body, and what appended bytes change.
-/
import CuteHttpServer.RequestGrammar

namespace CuteHttpServer

open ByteString DelimitedText KeyedMap

namespace HttpContext

/-- No whole line in a line state, or too few body bytes. -/
def LacksData {B : Type} [Buffer B] (context : HttpContext) (buff : B) : Prop :=
  match context.state with
  | .requestLine => CrlfFree (Buffer.readable buff)
  | .headers => CrlfFree (Buffer.readable buff)
  | .body =>
      (Buffer.readable buff).length < context.request.getContentLength.toNat
  | .finish => False

variable {context : HttpContext} {buff : Bytes} {receiveTime : Timestamp}

theorem parsePass_requestLine (hstate : context.state = .requestLine)
    {line : Bytes} (hline : CrlfFree line) (rest : Bytes) :
    context.parsePass (line ++ CR :: LF :: rest) receiveTime =
      context.takeRequestLine line rest receiveTime := by
  have hfind := findPair_append_pair CR_ne_LF hline rest
  simp only [parsePass, hstate, Buffer.findCRLF, hfind]
  simp [Buffer.readable, Buffer.retrieve]

theorem parsePass_headerLine (hstate : context.state = .headers)
    {line : Bytes} (hline : CrlfFree line) (rest : Bytes) :
    context.parsePass (line ++ CR :: LF :: rest) receiveTime =
      context.takeHeaderLine line rest := by
  have hfind := findPair_append_pair CR_ne_LF hline rest
  simp only [parsePass, hstate, Buffer.findCRLF, hfind]
  simp [Buffer.readable, Buffer.retrieve]

theorem parsePass_body (hstate : context.state = .body) {body : Bytes}
    (hbody : body.length = context.request.getContentLength.toNat)
    (rest : Bytes) :
    context.parsePass (body ++ rest) receiveTime =
      .done ⟨.returned true,
        { state := .finish, request := context.request.setRequestBody body },
        rest⟩ := by
  simp [parsePass, hstate, parseBody, ← hbody, Buffer.retrieve]

theorem parsePass_finish (hstate : context.state = .finish) (buff : Bytes) :
    context.parsePass buff receiveTime =
      .done ⟨.returned true, context, buff⟩ := by
  simp [parsePass, hstate]

theorem parsePass_of_lacksData {B : Type} [Buffer B] {buff : B}
    (h : context.LacksData buff) :
    context.parsePass buff receiveTime =
      .done ⟨.returned false, context, buff⟩ := by
  cases hstate : context.state with
  | requestLine =>
      have hfree : CrlfFree (Buffer.readable buff) := by
        simpa [LacksData, hstate] using h
      unfold CrlfFree PairFree at hfree
      simp [parsePass, hstate, Buffer.findCRLF_eq, hfree]
  | headers =>
      have hfree : CrlfFree (Buffer.readable buff) := by
        simpa [LacksData, hstate] using h
      unfold CrlfFree PairFree at hfree
      simp [parsePass, hstate, Buffer.findCRLF_eq, hfree]
  | body =>
      have hshort : ¬ context.request.getContentLength.toNat ≤
          (Buffer.readable buff).length := by
        simpa [LacksData, hstate] using h
      simp [parsePass, hstate, hshort]
  | finish => simp [LacksData, hstate] at h

/-- What a pass finds when data is not lacking. -/
theorem ready_cases (h : ¬ context.LacksData buff) :
    (context.state = .requestLine ∨ context.state = .headers) ∧
        (∃ line rest, CrlfFree line ∧ buff = line ++ CR :: LF :: rest) ∨
      context.state = .body ∧
        (∃ body rest, body.length = context.request.getContentLength.toNat ∧
          buff = body ++ rest) ∨
      context.state = .finish := by
  cases hstate : context.state with
  | requestLine =>
      have hline := (pairFree_or_line CR LF buff).resolve_left
        (by simpa [LacksData, hstate] using h)
      exact Or.inl ⟨Or.inl rfl, hline⟩
  | headers =>
      have hline := (pairFree_or_line CR LF buff).resolve_left
        (by simpa [LacksData, hstate] using h)
      exact Or.inl ⟨Or.inr rfl, hline⟩
  | body =>
      have hlength : context.request.getContentLength.toNat ≤ buff.length := by
        simpa [LacksData, hstate] using h
      refine Or.inr (Or.inl ⟨rfl,
        buff.take context.request.getContentLength.toNat,
        buff.drop context.request.getContentLength.toNat, ?_,
        (List.take_append_drop _ buff).symm⟩)
      rw [List.length_take, Nat.min_eq_left hlength]
  | finish => exact Or.inr (Or.inr rfl)

/-- A pass that has its data does not look at what follows. -/
theorem parsePass_append (h : ¬ context.LacksData buff) (more : Bytes) :
    context.parsePass (buff ++ more) receiveTime =
      (context.parsePass buff receiveTime).map (· ++ more) := by
  rcases ready_cases h with ⟨hstate, line, rest, hline, rfl⟩ |
    ⟨hstate, body, rest, hbody, rfl⟩ | hstate
  · rw [List.append_assoc, List.cons_append, List.cons_append]
    rcases hstate with hstate | hstate
    · rw [parsePass_requestLine hstate hline, parsePass_requestLine hstate hline,
        takeRequestLine_map]
    · rw [parsePass_headerLine hstate hline, parsePass_headerLine hstate hline,
        takeHeaderLine_map]
  · rw [List.append_assoc, parsePass_body hstate hbody, parsePass_body hstate hbody]
    rfl
  · rw [parsePass_finish hstate, parsePass_finish hstate]
    rfl

/-- The calls whose loop ends in a pass that lacks data; the `false` they
return means "need more data". -/
inductive WaitsForData {B : Type} [Buffer B] (receiveTime : Timestamp) :
    HttpContext → B → Prop
  | here {context : HttpContext} {buff : B} :
      context.LacksData buff → WaitsForData receiveTime context buff
  | again {context context' : HttpContext} {buff buff' : B} :
      context.parsePass buff receiveTime = .again context' buff' →
      WaitsForData receiveTime context' buff' →
      WaitsForData receiveTime context buff

theorem WaitsForData.readable {B : Type} [Buffer B] {context : HttpContext}
    {buff : B} (h : WaitsForData receiveTime context buff) :
    WaitsForData receiveTime context (Buffer.readable buff) := by
  induction h with
  | here hlacks => exact .here hlacks
  | again hpass _ ih =>
      refine .again ?_ ih
      rw [← parsePass_readable, hpass]
      rfl

/-- A call that waits leaves everything unread for the next one: with more
bytes, parsing from the start and parsing on are the same. -/
theorem WaitsForData.parse (h : WaitsForData receiveTime context buff) :
    (context.parseRequest buff receiveTime).outcome = .returned false ∧
      (context.parseRequest buff receiveTime).context.LacksData
        (context.parseRequest buff receiveTime).buffer ∧
      ∀ more, context.parseRequest (buff ++ more) receiveTime =
        (context.parseRequest buff receiveTime).context.parseRequest
          ((context.parseRequest buff receiveTime).buffer ++ more)
          receiveTime := by
  induction h with
  | here hlacks =>
      rw [parseRequest_eq, parsePass_of_lacksData hlacks]
      exact ⟨rfl, hlacks, fun more => rfl⟩
  | @again context context' buff buff' hpass hwaits ih =>
      have hready : ¬ context.LacksData buff := by
        intro hlacks
        rw [parsePass_of_lacksData hlacks] at hpass
        cases hpass
      have hparse : context.parseRequest buff receiveTime =
          context'.parseRequest buff' receiveTime := by
        rw [parseRequest_eq, hpass]
      rw [hparse]
      refine ⟨ih.1, ih.2.1, fun more => ?_⟩
      rw [parseRequest_eq, parsePass_append hready, hpass]
      exact ih.2.2 more

/-- A call that does not wait is not changed by bytes that follow. -/
theorem parseRequest_append (h : ¬ WaitsForData receiveTime context buff)
    (more : Bytes) :
    context.parseRequest (buff ++ more) receiveTime =
      ⟨(context.parseRequest buff receiveTime).outcome,
        (context.parseRequest buff receiveTime).context,
        (context.parseRequest buff receiveTime).buffer ++ more⟩ := by
  revert h
  refine parseRequest_induction receiveTime context buff ?_
  intro context buff ih h
  have hready : ¬ context.LacksData buff := fun hlacks => h (.here hlacks)
  rw [parseRequest_eq context (buff ++ more), parseRequest_eq context buff,
    parsePass_append hready]
  cases hpass : context.parsePass buff receiveTime with
  | done result => rfl
  | again context' buff' =>
      exact ih context' buff' hpass fun hwaits => h (.again hpass hwaits)

end HttpContext

end CuteHttpServer
