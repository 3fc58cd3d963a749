/-
The text of a response, read back: its head as lines, its status line and
fields as values.  No field of a response can end its line or the head early,
in whatever order the headers are written.
-/
import CuteHttpServer.HttpResponse

namespace CuteHttpServer

open ByteString DelimitedText KeyedMap

namespace HttpResponse

/-- The first line, without its line end. -/
def statusLine (response : HttpResponse) : Bytes :=
  response.httpVersion ++ 32 :: (decimal response.statusCode.toInt ++
    32 :: response.statusMessage)

/-- The line of one header, without its line end. -/
def fieldLine (field : Bytes × Bytes) : Bytes := field.1 ++ 58 :: 32 :: field.2

abbrev connectionName : Bytes := ascii "Connection"

/-- The header that is not in the map. -/
def connectionField (response : HttpResponse) : Bytes × Bytes :=
  (connectionName, if response.closeConnection then ascii "close" else ascii "keep-alive")

/-- All headers as they are written. -/
def writtenFields (order : IterationOrder Bytes Bytes) (response : HttpResponse) :
    List (Bytes × Bytes) :=
  order.visit response.responseHeaders ++ [response.connectionField]

/-- The lines of the head. -/
def headLines (order : IterationOrder Bytes Bytes) (response : HttpResponse) :
    List Bytes :=
  response.statusLine :: (response.writtenFields order).map fieldLine

theorem headerLine_eq (field : Bytes × Bytes) :
    headerLine field = fieldLine field ++ [CR, LF] := by
  simp [headerLine, fieldLine, show ascii ": " = [58, 32] from rfl]

theorem flatMap_headerLine (fields : List (Bytes × Bytes)) :
    fields.flatMap headerLine = withCrlf (fields.map fieldLine) := by
  rw [withCrlf, joinLines, List.flatMap_map, funext headerLine_eq]

theorem connection_line (response : HttpResponse) :
    (if response.closeConnection then ascii "Connection: close\r\n"
      else ascii "Connection: keep-alive\r\n") =
      fieldLine response.connectionField ++ [CR, LF] := by
  unfold connectionField
  cases response.closeConnection <;> rfl

/-- The response is its head lines, an empty line and the body. -/
theorem getResponse_eq (order : IterationOrder Bytes Bytes) (response : HttpResponse) :
    response.getResponse order =
      withCrlf (response.headLines order) ++ CR :: LF :: response.responseBody := by
  rw [getResponse, flatMap_headerLine, connection_line]
  simp [headLines, writtenFields, statusLine, withCrlf, show ascii " " = [32] from rfl]

/-- No field of the head has a line end in it. -/
structure HeadFree (response : HttpResponse) : Prop where
  version : CrlfFree response.httpVersion
  message : CrlfFree response.statusMessage
  headers : ∀ field ∈ fields response.responseHeaders,
    CrlfFree field.1 ∧ CrlfFree field.2

theorem crlfFree_decimal (n : Nat) : CrlfFree (decimal n) := by
  apply pairFree_of_not_mem
  intro hmem
  exact absurd (isDigit_of_mem_decimal hmem) (by decide)

theorem statusLine_free {response : HttpResponse} (h : response.HeadFree) :
    response.statusLine ≠ [] ∧ CrlfFree response.statusLine := by
  have hcode : CrlfFree (decimal response.statusCode.toInt ++
      32 :: response.statusMessage) :=
    pairFree_append_cons (by decide) (by decide) (crlfFree_decimal _) h.message
  exact ⟨by simp [statusLine], pairFree_append_cons (by decide) (by decide) h.version hcode⟩

theorem fieldLine_free {field : Bytes × Bytes} (hname : CrlfFree field.1)
    (hvalue : CrlfFree field.2) : fieldLine field ≠ [] ∧ CrlfFree (fieldLine field) := by
  have hblank : CrlfFree (32 :: field.2) :=
    pairFree_append_cons (by decide) (by decide) (pairFree_nil CR LF) hvalue
  exact ⟨by simp [fieldLine], pairFree_append_cons (by decide) (by decide) hname hblank⟩

theorem connectionField_free (response : HttpResponse) :
    CrlfFree response.connectionField.1 ∧ CrlfFree response.connectionField.2 := by
  unfold connectionField
  cases response.closeConnection <;> decide +kernel

theorem mem_visit (order : IterationOrder Bytes Bytes) (headers : StringMap)
    {field : Bytes × Bytes} : field ∈ order.visit headers ↔ field ∈ fields headers :=
  (order.visit_perm headers).mem_iff

theorem headLines_free (order : IterationOrder Bytes Bytes) {response : HttpResponse}
    (h : response.HeadFree) :
    ∀ line ∈ response.headLines order, line ≠ [] ∧ CrlfFree line := by
  intro line hline
  rcases List.mem_cons.mp hline with rfl | hline
  · exact statusLine_free h
  · obtain ⟨field, hfield, rfl⟩ := List.mem_map.mp hline
    rcases List.mem_append.mp hfield with hfield | hfield
    · have hfree := h.headers field ((mem_visit order _).mp hfield)
      exact fieldLine_free hfree.1 hfree.2
    · rw [List.mem_singleton.mp hfield]
      have hfree := response.connectionField_free
      exact fieldLine_free hfree.1 hfree.2

/-- Splitting the text at its first empty line gives back head and body. -/
theorem splitHead_getResponse (order : IterationOrder Bytes Bytes)
    {response : HttpResponse} (h : response.HeadFree) :
    splitHead CR LF true (response.getResponse order) =
      some (response.headLines order, response.responseBody) := by
  rw [getResponse_eq]
  exact splitHead_joinLines CR_ne_LF (headLines_free order h) _

end HttpResponse

/-- What a reader of a response gets. -/
structure DecodedResponse where
  version : Bytes
  statusCode : Nat
  statusMessage : Bytes
  fields : List (Bytes × Bytes)
  body : Bytes
deriving DecidableEq, Repr

/-- A status line, cut at its first two spaces. -/
def decodeStatusLine (line : Bytes) : Option (Bytes × Nat × Bytes) :=
  match line.idxOf? 32 with
  | none => none
  | some first =>
      let rest := line.drop (first + 1)
      match rest.idxOf? 32 with
      | none => none
      | some second =>
          if (rest.take second).all isDigit then
            some (line.take first, digitsValue (rest.take second), rest.drop (second + 1))
          else none

/-- A header line, cut at its first `: `. -/
def decodeField (line : Bytes) : Option (Bytes × Bytes) :=
  match findPair 58 32 line with
  | some position => some (line.take position, line.drop (position + 2))
  | none => none

/-- A whole response: the head up to the first empty line, the rest is the
body. -/
def decodeResponse (text : Bytes) : Option DecodedResponse :=
  match splitHead CR LF true text with
  | some (first :: rest, body) =>
      match decodeStatusLine first, rest.mapM decodeField with
      | some (version, code, message), some fields =>
          some ⟨version, code, message, fields, body⟩
      | _, _ => none
  | _ => none

namespace HttpResponse

theorem decodeStatusLine_statusLine {response : HttpResponse}
    (hversion : 32 ∉ response.httpVersion) :
    decodeStatusLine response.statusLine =
      some (response.httpVersion, response.statusCode.toInt, response.statusMessage) := by
  have hcode : (32 : Byte) ∉ decimal response.statusCode.toInt := fun hmem =>
    absurd (isDigit_of_mem_decimal hmem) (by decide)
  have hdigits : (decimal response.statusCode.toInt).all isDigit = true := by
    rw [List.all_eq_true]
    exact fun c hc => isDigit_of_mem_decimal hc
  simp only [decodeStatusLine, statusLine, idxOf?_append_cons hversion,
    drop_append_cons, idxOf?_append_cons hcode, List.take_left, hdigits, if_true,
    digitsValue_decimal]

theorem decodeField_fieldLine {field : Bytes × Bytes} (hname : 58 ∉ field.1) :
    decodeField (fieldLine field) = some field := by
  have hfind := findPair_append_pair (a := 58) (b := 32) (by decide)
    (pairFree_of_not_mem hname) field.2
  simp [decodeField, fieldLine, hfind]

/-- A response whose text can be read back. -/
structure Readable (response : HttpResponse) : Prop extends response.HeadFree where
  version_noSpace : 32 ∉ response.httpVersion
  names : ∀ field ∈ fields response.responseHeaders,
    58 ∉ field.1 ∧ field.1 ≠ connectionName

theorem writtenFields_perm (order : IterationOrder Bytes Bytes) (response : HttpResponse) :
    (response.writtenFields order).Perm
      (response.connectionField :: fields response.responseHeaders) := by
  have hvisit := order.visit_perm response.responseHeaders
  exact List.perm_append_comm.trans (hvisit.cons response.connectionField)

theorem mapM_decodeField {written : List (Bytes × Bytes)}
    (hnames : ∀ field ∈ written, 58 ∉ field.1) :
    (written.map fieldLine).mapM decodeField = some written := by
  induction written with
  | nil => rfl
  | cons field written ih =>
      have hlater := ih fun other hother => hnames other (List.mem_cons_of_mem field hother)
      rw [List.map_cons, List.mapM_cons,
        decodeField_fieldLine (hnames field List.mem_cons_self), hlater]
      rfl

theorem colonFree_of_readable (order : IterationOrder Bytes Bytes) {response : HttpResponse}
    (h : response.Readable) : ∀ field ∈ response.writtenFields order, 58 ∉ field.1 := by
  intro field hfield
  rcases List.mem_append.mp hfield with hfield | hfield
  · exact (h.names field ((mem_visit order _).mp hfield)).1
  · have hcolon : 58 ∉ connectionName := by decide +kernel
    rw [List.mem_singleton.mp hfield]
    exact hcolon

/-- The value that the written headers give a name. -/
theorem fieldValue_writtenFields (order : IterationOrder Bytes Bytes)
    {response : HttpResponse} (h : response.Readable) (name : Bytes) :
    fieldValue (response.writtenFields order) name =
      if name = connectionName then some response.connectionField.2
      else response.responseHeaders.lookup name := by
  have hvisit := order.visit_perm response.responseHeaders
  rw [writtenFields, fieldValue_append, fieldValue_perm hvisit, fieldValue_fields]
  by_cases hname : name = connectionName
  · have hnone : response.responseHeaders.lookup name = none := by
      rw [AList.lookup_eq_none]
      intro hmem
      obtain ⟨value, hvalue⟩ := exists_mem_fields hmem
      exact (h.names _ hvalue).2 hname
    rw [hnone, if_pos hname, Option.none_or, fieldValue_cons, hname]
    rfl
  · have hother : fieldValue [response.connectionField] name = none := by
      apply fieldValue_of_not_mem
      simpa [connectionField] using hname
    rw [hother, if_neg hname, Option.or_none]

/-- Reading a response back gives all that it was made of. -/
theorem decodeResponse_getResponse (order : IterationOrder Bytes Bytes)
    (response : HttpResponse) (h : response.Readable) :
    ∃ written, decodeResponse (response.getResponse order) =
        some ⟨response.httpVersion, response.statusCode.toInt, response.statusMessage,
          written, response.responseBody⟩ ∧
      written.Perm ((connectionName,
        if response.isCloseConnection then ascii "close" else ascii "keep-alive") ::
          fields response.responseHeaders) ∧
      ∀ name, fieldValue written name =
        if name = connectionName then
          some (if response.isCloseConnection then ascii "close" else ascii "keep-alive")
        else response.responseHeaders.lookup name := by
  refine ⟨response.writtenFields order, ?_, response.writtenFields_perm order,
    fieldValue_writtenFields order h⟩
  have hfields := mapM_decodeField (colonFree_of_readable order h)
  simp only [decodeResponse, splitHead_getResponse order h.toHeadFree, headLines,
    decodeStatusLine_statusLine h.version_noSpace, hfields]

/-- A response with a line end and an empty line in its body, and a header
value that begins with a separator. -/
def awkward : HttpResponse :=
  ((((new true).setVersion (ascii "HTTP/1.1")).setStatusCode .k200Ok).addHeader
    (ascii "X-Next") (ascii ": \n")).setResponseBody (ascii "a\r\n\r\nb")

theorem decodeResponse_getResponse_awkward :
    ∃ written, decodeResponse (awkward.getResponse .byEntry) =
        some ⟨ascii "HTTP/1.1", 200, [], written, ascii "a\r\n\r\nb"⟩ ∧
      fieldValue written (ascii "X-Next") = some (ascii ": \n") := by
  obtain ⟨written, hdecode, _, hvalue⟩ :=
    decodeResponse_getResponse .byEntry awkward
      ⟨⟨by decide +kernel, by decide +kernel, by decide +kernel⟩, by decide +kernel,
        by decide +kernel⟩
  exact ⟨written, hdecode, (hvalue (ascii "X-Next")).trans (by decide +kernel)⟩

end HttpResponse

end CuteHttpServer
