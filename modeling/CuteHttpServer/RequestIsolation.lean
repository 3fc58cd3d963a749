/-
What an earlier request of a connection leaves behind.  `Reset` swaps seven of
the nine members of the request object, and the parser writes the other two
only for a request with a `Content-Length`.
-/
import CuteHttpServer.ParseSimulation
import CuteHttpServer.AcceptanceSoundness

namespace CuteHttpServer

open ByteString DelimitedText StepRun

variable {B : Type} [Buffer B]

/-- One request of a connection: the bytes that lie unread when it begins, and
those that arrive until the context has all of it. -/
structure Delivery (B : Type) [Buffer B] where
  buffer : B
  arrivals : List Arrival
  completes : (runFrom Connection.parse
    ⟨HttpContext.new 0, buffer⟩ arrivals).1.context.gotAll = true

namespace Delivery

def bytes (delivery : Delivery B) : Bytes :=
  Buffer.readable delivery.buffer ++ received delivery.arrivals

/-- The context after the request's calls from the given one. -/
def parseFrom (delivery : Delivery B) (context : HttpContext) : HttpContext :=
  (runFrom Connection.parse ⟨context, delivery.buffer⟩ delivery.arrivals).1.context

/-- The header block has a `Content-Length` that is not empty. -/
def AnnouncesBody (delivery : Delivery B) : Prop :=
  contentLengthField (headerBlock delivery.bytes) ≠ []

instance (delivery : Delivery B) : Decidable delivery.AnnouncesBody :=
  inferInstanceAs (Decidable (_ ≠ _))

end Delivery

/-- The context after a history of requests, with `Reset` after each. -/
def contextAfter (indeterminate : UInt64) (history : List (Delivery B)) :
    HttpContext :=
  history.foldl (fun context delivery => (delivery.parseFrom context).reset)
    (HttpContext.new indeterminate)

/-- How a request object that began with a stale length and body differs from
one that did not. -/
def StaleBy (length : UInt64) (body : Bytes) :
    HttpRequestParseState → HttpRequest → HttpRequest → Prop
  | .requestLine, request, stale => stale = request.withStale length body
  | .headers, request, stale => stale = request.withStale length body
  | .body, request, stale =>
      request.getHeader contentLengthName ≠ [] ∧ stale = request.setRequestBody body
  | .finish, request, stale =>
      if request.getHeader contentLengthName = [] then
        stale = request.withStale length body
      else stale = request

theorem readHeaderLine_withStale (request : HttpRequest) (line : Bytes)
    (length : UInt64) (body : Bytes) :
    (request.withStale length body).readHeaderLine line =
      (request.readHeaderLine line).withStale length body := by
  unfold HttpRequest.readHeaderLine
  cases headerField line <;> rfl

theorem staleBy_simulation (length : UInt64) (body : Bytes) (time : Timestamp) :
    ReadingSimulation (StaleBy length body) time time where
  sameLengthField h := by
    obtain rfl := h
    rfl
  sameLength h := by
    obtain ⟨_, rfl⟩ := h
    rfl
  requestLine line h := by
    obtain rfl := h
    rfl
  headerLine line h := by
    obtain rfl := h
    exact readHeaderLine_withStale _ _ _ _
  noBody h hlength := by
    obtain rfl := h
    rw [StaleBy, if_pos hlength]
  announce announced h hlength := by
    obtain rfl := h
    exact ⟨hlength, rfl⟩
  body text h := by
    obtain ⟨hlength, rfl⟩ := h
    rw [StaleBy, if_neg]
    · rfl
    · exact hlength

namespace Delivery

variable (delivery : Delivery B) (indeterminate : UInt64)

omit indeterminate in
theorem parseFrom_view (context : HttpContext) :
    delivery.parseFrom context =
      (runFrom Connection.parse ⟨context, Buffer.readable delivery.buffer⟩
        delivery.arrivals).1.context := by
  have h := Connection.runFrom_parse_view ⟨context, delivery.buffer⟩
    delivery.arrivals
  exact (congrArg (fun run => run.1.context) h).symm

/-- A request read into a stale object and one read into a new one. -/
theorem parseFrom_stale (length : UInt64) (body : Bytes) :
    HttpContext.Related (StaleBy length body)
      (delivery.parseFrom (HttpContext.new indeterminate))
      (delivery.parseFrom
        ⟨.requestLine, (HttpRequest.new indeterminate).withStale length body⟩) := by
  rw [parseFrom_view, parseFrom_view]
  have h := Connection.runFrom_parse_related (staleBy_simulation length body)
    (HttpContext.new indeterminate)
    ⟨.requestLine, (HttpRequest.new indeterminate).withStale length body⟩
    ⟨rfl, rfl⟩ (Buffer.readable delivery.buffer) delivery.arrivals
  exact h.2

theorem parseFrom_state :
    (delivery.parseFrom (HttpContext.new indeterminate)).state = .finish := by
  have h := (delivery.parseFrom_stale 0 indeterminate []).1
  have hcompletes : (delivery.parseFrom (HttpContext.new 0)).gotAll = true :=
    delivery.completes
  rw [HttpContext.gotAll, beq_iff_eq, h] at hcompletes
  exact hcompletes

/-- What a new context reads: a head, and the body it announces. -/
theorem parseFrom_new : ∃ (head : RequestHead) (body : Bytes),
    BodyMatches head.contentLength body ∧
      headerBlock delivery.bytes = head.headerLines ∧
      (delivery.parseFrom (HttpContext.new indeterminate)).request =
        (head.read (HttpRequest.new indeterminate)).readBody body := by
  have hgot : (delivery.parseFrom (HttpContext.new indeterminate)).gotAll = true := by
    rw [HttpContext.gotAll, delivery.parseFrom_state]
    rfl
  rw [parseFrom_view] at hgot ⊢
  obtain ⟨head, body, hbody, hbytes, hrequest⟩ := Connection.parse_finish
    (HttpContext.idle_new indeterminate) (Buffer.readable delivery.buffer)
    delivery.arrivals hgot
  refine ⟨head, body, hbody, ?_, hrequest⟩
  rw [bytes, hbytes, List.append_assoc, List.cons_append, List.cons_append,
    headerBlock_text]

theorem getHeader_parseFrom :
    (delivery.parseFrom (HttpContext.new indeterminate)).request.getHeader
        contentLengthName =
      contentLengthField (headerBlock delivery.bytes) := by
  obtain ⟨head, body, _, hlines, hrequest⟩ := delivery.parseFrom_new indeterminate
  rw [hrequest, HttpRequest.getHeader_readBody, head.getHeader_read rfl, hlines]
  rfl

/-- Without a `Content-Length` the length and the body stay as they were. -/
theorem parseFrom_unannounced (h : ¬ delivery.AnnouncesBody) :
    let request := (delivery.parseFrom (HttpContext.new indeterminate)).request
    request.bodyLength = indeterminate ∧ request.requestBody = [] := by
  obtain ⟨head, body, _, hlines, hrequest⟩ := delivery.parseFrom_new indeterminate
  have hlength : (head.read (HttpRequest.new indeterminate)).getHeader
      contentLengthName = [] := by
    rw [head.getHeader_read rfl, RequestHead.contentLength, ← hlines]
    exact not_not.mp h
  rw [hrequest, HttpRequest.readBody, if_pos hlength, RequestHead.read,
    HttpRequest.readHeaderLines_eq]
  exact ⟨rfl, rfl⟩

/-- The length and the body that `Reset` does not clear after this request. -/
def leaves (stale : UInt64 × Bytes) : UInt64 × Bytes :=
  if delivery.AnnouncesBody then
    let request := (delivery.parseFrom (HttpContext.new 0)).request
    (request.bodyLength, request.requestBody)
  else stale

/-- With a `Content-Length` nothing stale is seen, without one all of it is. -/
theorem request_stale (length : UInt64) (body : Bytes) :
    (delivery.parseFrom
        ⟨.requestLine, (HttpRequest.new indeterminate).withStale length body⟩).request =
      if delivery.AnnouncesBody then
        (delivery.parseFrom (HttpContext.new indeterminate)).request
      else
        (delivery.parseFrom (HttpContext.new indeterminate)).request.withStale
          length body := by
  have h := (delivery.parseFrom_stale indeterminate length body).2
  rw [parseFrom_state, StaleBy, delivery.getHeader_parseFrom] at h
  by_cases hannounces : delivery.AnnouncesBody
  · rw [if_neg hannounces] at h
    rw [if_pos hannounces, h]
  · rw [if_pos (not_not.mp hannounces)] at h
    rw [if_neg hannounces, h]

/-- Two new objects differ in their indeterminate length only. -/
theorem request_new (hannounces : delivery.AnnouncesBody) :
    (delivery.parseFrom (HttpContext.new indeterminate)).request =
      (delivery.parseFrom (HttpContext.new 0)).request := by
  have h := delivery.request_stale 0 indeterminate []
  rw [if_pos hannounces] at h
  exact h

/-- `Reset` after a request that began with stale members. -/
theorem reset_stale (stale : UInt64 × Bytes) :
    (delivery.parseFrom
        ⟨.requestLine, (HttpRequest.new indeterminate).withStale stale.1 stale.2⟩).reset =
      ⟨.requestLine, (HttpRequest.new indeterminate).withStale
        (delivery.leaves stale).1 (delivery.leaves stale).2⟩ := by
  rw [HttpContext.reset, HttpRequest.swap_new _ _ indeterminate,
    delivery.request_stale indeterminate, leaves]
  by_cases hannounces : delivery.AnnouncesBody
  · rw [if_pos hannounces, if_pos hannounces, delivery.request_new _ hannounces]
  · rw [if_neg hannounces, if_neg hannounces]
    rfl

end Delivery

/-- The length and the body left over from a history of requests. -/
def leftOver (history : List (Delivery B)) (stale : UInt64 × Bytes) :
    UInt64 × Bytes :=
  history.foldl (fun stale delivery => delivery.leaves stale) stale

theorem leftOver_of_unannounced {history : List (Delivery B)}
    (h : ∀ delivery ∈ history, ¬ delivery.AnnouncesBody) (stale : UInt64 × Bytes) :
    leftOver history stale = stale := by
  induction history with
  | nil => rfl
  | cons delivery history ih =>
      obtain ⟨hfirst, hrest⟩ := List.forall_mem_cons.mp h
      change leftOver history (delivery.leaves stale) = stale
      rw [Delivery.leaves, if_neg hfirst, ih hrest]

/-- Once a request with a body has been through, what is left over no longer
depends on what was there first. -/
theorem leftOver_of_announced {history : List (Delivery B)}
    (h : ∃ delivery ∈ history, delivery.AnnouncesBody)
    (stale stale' : UInt64 × Bytes) :
    leftOver history stale = leftOver history stale' := by
  induction history generalizing stale stale' with
  | nil =>
      obtain ⟨delivery, hmem, _⟩ := h
      exact absurd hmem List.not_mem_nil
  | cons delivery history ih =>
      change leftOver history (delivery.leaves stale) =
        leftOver history (delivery.leaves stale')
      by_cases hrest : ∃ delivery ∈ history, delivery.AnnouncesBody
      · exact ih hrest _ _
      · obtain ⟨other, hmem, hannounces⟩ := h
        rcases List.mem_cons.mp hmem with rfl | hmem
        · rw [Delivery.leaves, Delivery.leaves, if_pos hannounces, if_pos hannounces]
        · exact absurd ⟨other, hmem, hannounces⟩ hrest

theorem contextAfter_eq (indeterminate : UInt64) (history : List (Delivery B)) :
    contextAfter indeterminate history =
      ⟨.requestLine, (HttpRequest.new indeterminate).withStale
        (leftOver history (indeterminate, [])).1
        (leftOver history (indeterminate, [])).2⟩ := by
  have hfold : ∀ stale : UInt64 × Bytes,
      history.foldl (fun context delivery => (delivery.parseFrom context).reset)
          ⟨.requestLine, (HttpRequest.new indeterminate).withStale stale.1 stale.2⟩ =
        ⟨.requestLine, (HttpRequest.new indeterminate).withStale
          (leftOver history stale).1 (leftOver history stale).2⟩ := by
    induction history with
    | nil => intro stale; rfl
    | cons delivery history ih =>
        intro stale
        rw [List.foldl_cons, delivery.reset_stale, ih]
        rfl
  exact hfold (indeterminate, [])

/-- The last request is read as on a new context, whatever a new object's
length happens to be, exactly when it has a `Content-Length` itself or no
request before it had one. -/
theorem getRequest_isolated_iff (history : List (Delivery B)) (last : Delivery B) :
    (∀ indeterminate,
      (last.parseFrom (contextAfter indeterminate history)).getRequest =
        (last.parseFrom (HttpContext.new indeterminate)).getRequest) ↔
      last.AnnouncesBody ∨ ∀ delivery ∈ history, ¬ delivery.AnnouncesBody := by
  simp only [HttpContext.getRequest, contextAfter_eq, last.request_stale]
  by_cases hlast : last.AnnouncesBody
  · simp [hlast]
  · simp only [hlast, if_false, false_or]
    constructor
    · intro hsame
      by_contra hannounced
      simp only [not_forall, not_not, exists_prop] at hannounced
      -- The left-over length is fixed, so another indeterminate one shows it.
      set left := leftOver history (0, []) with hleft
      have h := hsame (left.1 + 1)
      have hlength := congrArg HttpRequest.bodyLength h
      rw [(last.parseFrom_unannounced _ hlast).1,
        leftOver_of_announced hannounced _ (0, []), ← hleft] at hlength
      exact absurd hlength (by simp [HttpRequest.withStale])
    · intro hnone indeterminate
      rw [leftOver_of_unannounced hnone]
      have hlast := last.parseFrom_unannounced indeterminate hlast
      dsimp only at hlast
      generalize (last.parseFrom (HttpContext.new indeterminate)).request = request
        at hlast
      obtain ⟨hlength, hbody⟩ := hlast
      rw [HttpRequest.withStale, ← hlength, ← hbody]

/-- A `POST` with a five byte body. -/
def Delivery.post : Delivery Bytes where
  buffer := []
  arrivals := [⟨ascii "POST / HTTP/1.1\r\nContent-Length: 5\r\n\r\nhello", 1⟩]
  completes := by decide +kernel

/-- A `GET` without a body. -/
def Delivery.get : Delivery Bytes where
  buffer := []
  arrivals := [⟨ascii "GET / HTTP/1.1\r\n\r\n", 2⟩]
  completes := by decide +kernel

/-- After the `POST`, the `GET` has a body. -/
theorem getRequest_leaks_body :
    (Delivery.get.parseFrom (contextAfter 0 [Delivery.post])).getRequest.getRequestBody =
        ascii "hello" ∧
      (Delivery.get.parseFrom (contextAfter 0 [Delivery.post])).getRequest ≠
        (Delivery.get.parseFrom (HttpContext.new 0)).getRequest := by
  decide +kernel

end CuteHttpServer
