/-
What a response says about its connection, as a client reads it off the bytes
that are sent, and whether the server then does so.
-/
import CuteHttpServer.HttpServer
import CuteHttpServer.ResponseLength

namespace CuteHttpServer

open ByteString DelimitedText KeyedMap

/-- The header lines of a response: those after the first, up to the first
empty one. -/
def headerLinesOf (data : Bytes) : List Bytes :=
  ((completeLines CR LF data).takeWhile (· ≠ [])).tail

/-- The value of a header line, if it is a `Connection` field.  The name of a
field has no letter case. -/
def connectionValue (line : Bytes) : Option Bytes :=
  match line.idxOf? 58 with
  | some position =>
      if (line.take position).map lowerCase = ascii "connection" then
        some (((line.drop (position + 1)).dropWhile isBlank).rdropWhile isBlank)
      else none
  | none => none

/-- The values of all `Connection` fields that the bytes of a response hold. -/
def connectionValues (data : Bytes) : List Bytes :=
  (headerLinesOf data).filterMap connectionValue

/-- What a client should read about a connection. -/
def connectionWord (closes : Bool) : Bytes :=
  if closes then ascii "close" else ascii "keep-alive"

/-- Whatever is sent says once what happens to the connection then. -/
def Dispatch.SaysWhatItDoes {σ : Type} (dispatch : Dispatch σ) : Prop :=
  ∀ data, .sent data ∈ dispatch.events →
    connectionValues data = [connectionWord (dispatch.events.contains .shutdown)]

/-- For a dispatch that sends. -/
theorem Dispatch.saysWhatItDoes_returned {σ : Type} (state : σ) (request : HttpRequest)
    (data : Bytes) (closes : Bool) :
    (⟨state, .invoked request :: .sent data :: (if closes then [.shutdown] else []), none⟩ :
        Dispatch σ).SaysWhatItDoes ↔
      connectionValues data = [connectionWord closes] := by
  cases closes <;> simp [SaysWhatItDoes]

namespace HttpResponse

/-- The text of a response up to the `Connection` line that the server adds:
the status line and the headers of the map. -/
def leadText (order : IterationOrder Bytes Bytes) (response : HttpResponse) : Bytes :=
  withCrlf (response.statusLine :: (order.visit response.responseHeaders).map fieldLine)

/-- Nothing before the server's own `Connection` line cuts the head off: no zero
byte, no empty line. -/
def LeadWhole (order : IterationOrder Bytes Bytes) (response : HttpResponse) : Prop :=
  0 ∉ response.leadText order ∧ [] ∉ completeLines CR LF (response.leadText order)

/-- What stands before the server's own `Connection` line has no such field in
it.  Where it cuts that line off, it says by itself what the line would say. -/
def LeadAgrees (order : IterationOrder Bytes Bytes) (response : HttpResponse) : Prop :=
  (response.LeadWhole order ∧ connectionValues (response.leadText order) = []) ∨
    (¬ response.LeadWhole order ∧
      connectionValues ((response.leadText order).takeWhile (· ≠ 0)) =
        [connectionWord response.isCloseConnection])

/-- A name that a client takes for `Connection`: what counts is the text up to
a colon. -/
def IsConnectionName (name : Bytes) : Prop :=
  (name.takeWhile (· ≠ 58)).map lowerCase = ascii "connection"

theorem getResponse_leadText (order : IterationOrder Bytes Bytes) (response : HttpResponse) :
    response.getResponse order =
      response.leadText order ++
        (fieldLine response.connectionField ++ CR :: LF :: CR :: LF :: response.responseBody) := by
  rw [getResponse_eq, headLines, writtenFields, leadText]
  simp [withCrlf]

theorem connectionValue_own (response : HttpResponse) :
    connectionValue (fieldLine response.connectionField) =
      some (connectionWord response.isCloseConnection) := by
  unfold connectionField isCloseConnection connectionWord
  cases response.closeConnection <;> decide +kernel

theorem ownLine_free (response : HttpResponse) :
    CrlfFree (fieldLine response.connectionField) ∧
      fieldLine response.connectionField ≠ [] ∧
      0 ∉ fieldLine response.connectionField := by
  unfold connectionField
  cases response.closeConnection <;> decide +kernel

/-- The text ends with a line end. -/
theorem exists_leadText_eq (order : IterationOrder Bytes Bytes) (response : HttpResponse) :
    ∃ text, response.leadText order = text ++ [CR, LF] := by
  have hne : response.statusLine :: (order.visit response.responseHeaders).map fieldLine ≠ [] :=
    List.cons_ne_nil _ _
  obtain ⟨lines, last, hlines⟩ := (List.eq_nil_or_concat' _).resolve_left hne
  refine ⟨withCrlf lines ++ last, ?_⟩
  rw [leadText, hlines, withCrlf, joinLines_append, joinLines_cons, joinLines_nil,
    List.append_assoc]

/-- What follows it begins a line of its own. -/
theorem completeLines_leadText_append (order : IterationOrder Bytes Bytes)
    (response : HttpResponse) (rest : Bytes) :
    completeLines CR LF (response.leadText order ++ rest) =
      completeLines CR LF (response.leadText order) ++ completeLines CR LF rest := by
  obtain ⟨text, htext⟩ := exists_leadText_eq order response
  rw [htext, List.append_assoc, ← completeLines_append CR_ne_LF]
  rfl

theorem completeLines_leadText_ne_nil (order : IterationOrder Bytes Bytes)
    (response : HttpResponse) : completeLines CR LF (response.leadText order) ≠ [] := by
  obtain ⟨text, htext⟩ := exists_leadText_eq order response
  rw [htext]
  rcases pairFree_or_line CR LF text with hfree | ⟨line, later, hline, rfl⟩
  · rw [completeLines_append_pair CR_ne_LF hfree]
    exact List.cons_ne_nil _ _
  · rw [List.append_assoc, List.cons_append, List.cons_append,
      completeLines_append_pair CR_ne_LF hline]
    exact List.cons_ne_nil _ _

/-- Where nothing cuts the head off, a client reads the fields of the map and
then the server's own. -/
theorem connectionValues_whole (order : IterationOrder Bytes Bytes) {response : HttpResponse}
    (hline : [] ∉ completeLines CR LF (response.leadText order)) (rest : Bytes) :
    connectionValues (response.leadText order ++
        (fieldLine response.connectionField ++ CR :: LF :: CR :: LF :: rest)) =
      connectionValues (response.leadText order) ++
        [connectionWord response.isCloseConnection] := by
  obtain ⟨hfree, hown, _⟩ := response.ownLine_free
  have hne := completeLines_leadText_ne_nil order response
  have hempty : completeLines CR LF (CR :: LF :: rest) = [] :: completeLines CR LF rest :=
    completeLines_append_pair CR_ne_LF (pairFree_nil CR LF) rest
  have hall : ∀ line ∈ completeLines CR LF (response.leadText order),
      decide (line ≠ []) = true := by
    intro line hmem
    apply decide_eq_true
    rintro rfl
    exact hline hmem
  have hlead : headerLinesOf (response.leadText order) =
      (completeLines CR LF (response.leadText order)).tail := by
    rw [headerLinesOf, List.takeWhile_eq_self_iff.mpr hall]
  have hsent : headerLinesOf (response.leadText order ++
      (fieldLine response.connectionField ++ CR :: LF :: CR :: LF :: rest)) =
      headerLinesOf (response.leadText order) ++ [fieldLine response.connectionField] := by
    rw [hlead, headerLinesOf, completeLines_leadText_append,
      completeLines_append_pair CR_ne_LF hfree, hempty,
      List.takeWhile_append_of_pos hall, List.tail_append_of_ne_nil hne]
    simp [hown]
  rw [connectionValues, hsent, List.filterMap_append, List.filterMap_cons,
    connectionValue_own, List.filterMap_nil, connectionValues]

/-- Where an empty line does, the server's own field is not read. -/
theorem connectionValues_cut (order : IterationOrder Bytes Bytes) {response : HttpResponse}
    (hline : [] ∈ completeLines CR LF (response.leadText order)) (rest : Bytes) :
    connectionValues (response.leadText order ++ rest) =
      connectionValues (response.leadText order) := by
  rw [connectionValues, headerLinesOf, completeLines_leadText_append,
    takeWhile_ne_append_of_mem hline]
  rfl

/-- What is sent has the one right field exactly if the text of the map agrees. -/
theorem connectionValues_sent_iff (order : IterationOrder Bytes Bytes)
    (response : HttpResponse) :
    connectionValues ((response.getResponse order).takeWhile (· ≠ 0)) =
        [connectionWord response.isCloseConnection] ↔
      response.LeadAgrees order := by
  obtain ⟨_, _, hown⟩ := response.ownLine_free
  rw [getResponse_leadText, LeadAgrees, LeadWhole]
  by_cases hzero : 0 ∈ response.leadText order
  · rw [takeWhile_ne_append_of_mem hzero]
    simp [hzero]
  · have hsent : (response.leadText order ++ (fieldLine response.connectionField ++
        CR :: LF :: CR :: LF :: response.responseBody)).takeWhile (· ≠ 0) =
        response.leadText order ++ (fieldLine response.connectionField ++
          CR :: LF :: CR :: LF :: response.responseBody.takeWhile (· ≠ 0)) := by
      rw [takeWhile_ne_append_of_not_mem hzero, takeWhile_ne_append_of_not_mem hown]
      simp [CR, LF]
    rw [hsent]
    by_cases hline : [] ∈ completeLines CR LF (response.leadText order)
    · rw [connectionValues_cut order hline, takeWhile_ne_self hzero]
      simp [hline]
    · rw [connectionValues_whole order hline]
      simp [hzero, hline]

theorem connectionValue_fieldLine (field : Bytes × Bytes) :
    connectionValue (fieldLine field) = none ↔ ¬ IsConnectionName field.1 := by
  obtain ⟨name, value⟩ := field
  obtain ⟨key, later, hkey, hline, hname⟩ : ∃ key later, 58 ∉ key ∧
      fieldLine (name, value) = key ++ 58 :: later ∧ name.takeWhile (· ≠ 58) = key := by
    by_cases hcolon : 58 ∈ name
    · obtain ⟨key, later, rfl, hkey⟩ := List.eq_append_cons_of_mem hcolon
      exact ⟨key, later ++ 58 :: 32 :: value, hkey, by simp [fieldLine], takeWhile_ne hkey later⟩
    · exact ⟨name, 32 :: value, hcolon, rfl, takeWhile_ne_self hcolon⟩
  rw [connectionValue, IsConnectionName, hname, hline, idxOf?_append_cons hkey]
  simp

theorem zero_not_mem_leadText (order : IterationOrder Bytes Bytes) {response : HttpResponse}
    (h : response.HeadClean) : 0 ∉ response.leadText order := by
  have hbare : HeadClean { response with responseBody := [] } :=
    ⟨h.version, h.message, h.headers⟩
  have hzero := zero_mem_getResponse_iff order hbare
  rw [getResponse_leadText] at hzero
  intro hmem
  exact List.not_mem_nil (hzero.mp (List.mem_append_left _ hmem))

/-- For clean texts this is a matter of the names in the map. -/
theorem leadAgrees_of_clean (order : IterationOrder Bytes Bytes) {response : HttpResponse}
    (h : response.HeadClean) :
    response.LeadAgrees order ↔
      ∀ field ∈ fields response.responseHeaders, ¬ IsConnectionName field.1 := by
  have hvisit : ∀ field ∈ order.visit response.responseHeaders,
      field ∈ fields response.responseHeaders :=
    fun field hfield => (mem_visit order _).mp hfield
  have hlines : ∀ line ∈ response.statusLine ::
      (order.visit response.responseHeaders).map fieldLine, line ≠ [] ∧ CrlfFree line := by
    intro line hline
    rcases List.mem_cons.mp hline with rfl | hline
    · exact statusLine_free h.headFree
    · obtain ⟨field, hfield, rfl⟩ := List.mem_map.mp hline
      have hfree := h.headFree.headers field (hvisit field hfield)
      exact fieldLine_free hfree.1 hfree.2
  have hcomplete : completeLines CR LF (response.leadText order) =
      response.statusLine :: (order.visit response.responseHeaders).map fieldLine := by
    have hjoined := completeLines_joinLines_append CR_ne_LF
      (fun line hline => (hlines line hline).2) []
    rwa [List.append_nil, show completeLines CR LF [] = [] from rfl, List.append_nil] at hjoined
  have hline : [] ∉ completeLines CR LF (response.leadText order) := by
    rw [hcomplete]
    exact fun hmem => (hlines [] hmem).1 rfl
  have hzero := zero_not_mem_leadText order h
  have hheaders : headerLinesOf (response.leadText order) =
      (order.visit response.responseHeaders).map fieldLine := by
    rw [headerLinesOf, hcomplete, List.takeWhile_eq_self_iff.mpr, List.tail_cons]
    exact fun line hmem => decide_eq_true (hlines line hmem).1
  have hvalues : connectionValues (response.leadText order) = [] ↔
      ∀ field ∈ fields response.responseHeaders, ¬ IsConnectionName field.1 := by
    rw [connectionValues, hheaders, List.filterMap_eq_nil_iff, List.forall_mem_map]
    simp only [connectionValue_fieldLine, mem_visit]
  rw [LeadAgrees, LeadWhole, ← hvalues]
  simp [hzero, hline]

/-- When a response that the callback leaves keeps the server's word. -/
def KeepsConnection (order : IterationOrder Bytes Bytes) (response : HttpResponse) : Prop :=
  (response.HeadClean ∧ ∀ field ∈ fields response.responseHeaders, ¬ IsConnectionName field.1) ∨
    (¬ response.HeadClean ∧ response.LeadAgrees order)

theorem keepsConnection_iff (order : IterationOrder Bytes Bytes) (response : HttpResponse) :
    response.KeepsConnection order ↔ response.LeadAgrees order := by
  unfold KeepsConnection
  by_cases hclean : response.HeadClean
  · simp [hclean, leadAgrees_of_clean order hclean]
  · simp [hclean]

end HttpResponse

namespace HttpServer

variable {σ : Type}

/-- What is sent agrees with what the server does exactly if the callback
throws, and nothing is sent, or leaves no `Connection` header. -/
theorem onRequest_saysWhatItDoes_iff (B : Type) [Buffer B] (server : HttpServer σ)
    (handlers : σ) (request : HttpRequest) :
    let called := server.httpCallback handlers request
      (HttpResponse.new (closesByDefault request))
    (server.onRequest B handlers request).SaysWhatItDoes ↔
      called.thrown.isSome ∨ called.response.KeepsConnection server.headerOrder := by
  intro called
  rw [HttpResponse.keepsConnection_iff, ← HttpResponse.connectionValues_sent_iff]
  cases hthrown : called.thrown with
  | some e =>
      rw [onRequest_threw server hthrown]
      simp [Dispatch.SaysWhatItDoes]
  | none =>
      rw [onRequest_returned server hthrown, Dispatch.saysWhatItDoes_returned]
      exact (or_iff_right Bool.false_ne_true).symm

/-- A callback that adds the header itself. -/
def closingCallback : HttpCallback Unit := fun handlers _ response =>
  ⟨handlers, ((response.setVersion (ascii "HTTP/1.1")).setStatusCode .k200Ok).addHeader
    (ascii "Connection") (ascii "close"), none⟩

/-- The client then reads both values, and the server keeps the connection. -/
theorem not_saysWhatItDoes_closing :
    ¬ (onRequest ⟨closingCallback, .byEntry⟩ Bytes ()
      ((HttpRequest.new 0).setVersion (ascii "HTTP/1.1"))).SaysWhatItDoes := by
  intro h
  have hsays := h (ascii "HTTP/1.1 200 \r\nConnection: close\r\nConnection: keep-alive\r\n\r\n")
    (by decide +kernel)
  exact absurd hsays (by decide +kernel)

end HttpServer

end CuteHttpServer
