/-
The announced length of a response and the bytes that are sent for it, after
any sequence of setter calls.
-/
import CuteHttpServer.ResponseText

namespace CuteHttpServer

open ByteString DelimitedText KeyedMap

/-- The calls a handler makes on its response; a direct `SetContentLength` is
not among them. -/
inductive SetterCall
  | addHeader (key value : Bytes)
  | setContentType (type : Bytes)
  | setStatusCode (code : HttpStatusCode)
  | setStatusMessage (message : Bytes)
  | setVersion (version : Bytes)
  | setCloseConnection (close : Bool)
  | setResponseBody (body : Bytes)

/-- Text that may stand in a head: no `\r`, `\n` or zero byte. -/
def HeadText (text : Bytes) : Prop := CR ∉ text ∧ LF ∉ text ∧ 0 ∉ text

instance (text : Bytes) : Decidable (HeadText text) :=
  inferInstanceAs (Decidable (CR ∉ text ∧ LF ∉ text ∧ 0 ∉ text))

namespace SetterCall

def apply (response : HttpResponse) : SetterCall → HttpResponse
  | addHeader key value => response.addHeader key value
  | setContentType type => response.setContentType type
  | setStatusCode code => response.setStatusCode code
  | setStatusMessage message => response.setStatusMessage message
  | setVersion version => response.setVersion version
  | setCloseConnection close => response.setCloseConnection close
  | setResponseBody body => response.setResponseBody body

/-- What the call puts into the head is head text, and a body is no longer
than a C++ string can be. -/
def Clean : SetterCall → Prop
  | addHeader key value => HeadText key ∧ HeadText value
  | setContentType type => HeadText type
  | setStatusCode _ => True
  | setStatusMessage message => HeadText message
  | setVersion version => HeadText version
  | setCloseConnection _ => True
  | setResponseBody body => body.length < UInt64.size

/-- The body that the call sets. -/
def body? : SetterCall → Option Bytes
  | setResponseBody body => some body
  | _ => none

/-- The last body that a sequence of calls sets. -/
def lastBody (calls : List SetterCall) : Option Bytes :=
  calls.reverse.findSome? body?

end SetterCall

/-- Any public setter. -/
inductive PublicCall
  | setter (call : SetterCall)
  | setContentLength (length : UInt64)

def PublicCall.apply (response : HttpResponse) : PublicCall → HttpResponse
  | setter call => call.apply response
  | setContentLength length => response.setContentLength length

namespace HttpResponse

/-- The response after a sequence of calls. -/
def build (close : Bool) (calls : List SetterCall) : HttpResponse :=
  calls.foldl SetterCall.apply (new close)

theorem build_append (close : Bool) (calls : List SetterCall) (call : SetterCall) :
    build close (calls ++ [call]) = call.apply (build close calls) := by
  simp [build]

/-- Everything in the head is head text. -/
structure HeadClean (response : HttpResponse) : Prop where
  version : HeadText response.httpVersion
  message : HeadText response.statusMessage
  headers : ∀ key value, response.responseHeaders.lookup key = some value →
    HeadText key ∧ HeadText value

theorem headText_decimal (n : Nat) : HeadText (decimal n) := by
  refine ⟨?_, ?_, ?_⟩ <;>
    exact fun hmem => absurd (isDigit_of_mem_decimal hmem) (by decide)

/-- Adding a clean header, or setting one, keeps the headers clean. -/
theorem HeadClean.emplace {response : HttpResponse} (h : response.HeadClean)
    {key value : Bytes} (hkey : HeadText key) (hvalue : HeadText value) :
    HeadClean (response.addHeader key value) where
  version := h.version
  message := h.message
  headers := forall_lookup_emplace h.headers ⟨hkey, hvalue⟩

theorem HeadClean.assign {response : HttpResponse} (h : response.HeadClean)
    {key value : Bytes} (hkey : HeadText key) (hvalue : HeadText value) :
    HeadClean { response with
      responseHeaders := KeyedMap.assign response.responseHeaders key value } where
  version := h.version
  message := h.message
  headers := forall_lookup_assign h.headers ⟨hkey, hvalue⟩

theorem HeadClean.apply {response : HttpResponse} (h : response.HeadClean)
    {call : SetterCall} (hcall : call.Clean) : (call.apply response).HeadClean := by
  cases call with
  | addHeader key value => exact h.emplace hcall.1 hcall.2
  | setContentType type => exact h.assign (by decide +kernel) hcall
  | setStatusCode code => exact ⟨h.version, h.message, h.headers⟩
  | setStatusMessage message => exact ⟨h.version, hcall, h.headers⟩
  | setVersion version => exact ⟨hcall, h.message, h.headers⟩
  | setCloseConnection close => exact ⟨h.version, h.message, h.headers⟩
  | setResponseBody body =>
      have hname : HeadText (ascii "Content-Length") := by decide +kernel
      have hlength := h.assign hname (headText_decimal (UInt64.ofNat body.length).toNat)
      exact ⟨hlength.version, hlength.message, hlength.headers⟩

theorem build_headClean (close : Bool) {calls : List SetterCall}
    (hcalls : ∀ call ∈ calls, call.Clean) : (build close calls).HeadClean := by
  induction calls using List.reverseRecOn with
  | nil =>
      have hempty : HeadText [] := by decide
      exact ⟨hempty, hempty, fun key value h => absurd h (by simp [build, new])⟩
  | append_singleton calls call ih =>
      rw [build_append]
      apply HeadClean.apply
      · exact ih fun other hother => hcalls other (List.mem_append_left _ hother)
      · exact hcalls call (by simp)

/-- The response has this body, and its `Content-Length` says so. -/
def Announces (response : HttpResponse) (body : Bytes) : Prop :=
  response.responseBody = body ∧
    response.responseHeaders.lookup (ascii "Content-Length") = some (decimal body.length)

theorem announces_setResponseBody (response : HttpResponse) {body : Bytes}
    (hbody : body.length < UInt64.size) :
    (response.setResponseBody body).Announces body := by
  refine ⟨rfl, ?_⟩
  have hlength : (UInt64.ofNat body.length).toNat = body.length := Nat.mod_eq_of_lt hbody
  simp only [setResponseBody, setContentLength, lookup_assign, if_true, hlength]

/-- No other call takes the announcement back: `emplace` keeps what is there,
and the content type is another header. -/
theorem Announces.apply {response : HttpResponse} {body : Bytes}
    (h : response.Announces body) {call : SetterCall} (hcall : call.body? = none) :
    (call.apply response).Announces body := by
  cases call with
  | addHeader key value =>
      refine ⟨h.1, ?_⟩
      simp only [SetterCall.apply, addHeader, lookup_emplace, h.2, Option.some_or]
  | setContentType type =>
      refine ⟨h.1, ?_⟩
      have hother : ascii "Content-Length" ≠ ascii "Content-Type" := by decide +kernel
      simp only [SetterCall.apply, setContentType, lookup_assign, if_neg hother, h.2]
  | setStatusCode code => exact h
  | setStatusMessage message => exact h
  | setVersion version => exact h
  | setCloseConnection close => exact h
  | setResponseBody other => exact absurd hcall (Option.some_ne_none other)

theorem build_announces (close : Bool) {calls : List SetterCall} {body : Bytes}
    (hcalls : ∀ call ∈ calls, call.Clean) (hbody : SetterCall.lastBody calls = some body) :
    (build close calls).Announces body := by
  induction calls using List.reverseRecOn with
  | nil => exact absurd hbody (by simp [SetterCall.lastBody])
  | append_singleton calls call ih =>
      rw [build_append]
      rw [SetterCall.lastBody, List.reverse_append, List.reverse_singleton,
        List.singleton_append, List.findSome?_cons] at hbody
      cases hcall : call.body? with
      | none =>
          rw [hcall] at hbody
          have hbefore := ih (fun other hother => hcalls other (List.mem_append_left _ hother))
            hbody
          exact hbefore.apply hcall
      | some last =>
          rw [hcall, Option.some.injEq] at hbody
          subst hbody
          cases call with
          | setResponseBody other =>
              obtain rfl : other = last := Option.some.inj hcall
              have hclean := hcalls (.setResponseBody other) (by simp)
              exact announces_setResponseBody _ hclean
          | _ => exact absurd hcall.symm (Option.some_ne_none last)

theorem HeadClean.headFree {response : HttpResponse} (h : response.HeadClean) :
    response.HeadFree where
  version := pairFree_of_not_mem h.version.1
  message := pairFree_of_not_mem h.message.1
  headers := by
    rintro ⟨key, value⟩ hfield
    have hclean := h.headers key value (mem_fields_iff.mp hfield)
    exact ⟨pairFree_of_not_mem hclean.1.1, pairFree_of_not_mem hclean.2.1⟩

/-- A clean head has no zero byte, so any in the text is one of the body. -/
theorem zero_mem_getResponse_iff (order : IterationOrder Bytes Bytes)
    {response : HttpResponse} (h : response.HeadClean) :
    0 ∈ response.getResponse order ↔ 0 ∈ response.responseBody := by
  have hstatus : (0 : Byte) ∉ response.statusLine := by
    simp [statusLine, h.version.2.2, h.message.2.2, (headText_decimal _).2.2]
  have hfield : ∀ field ∈ response.writtenFields order, (0 : Byte) ∉ fieldLine field := by
    intro field hfield
    have hclean : HeadText field.1 ∧ HeadText field.2 := by
      rcases List.mem_append.mp hfield with hfield | hfield
      · exact h.headers _ _ (mem_fields_iff.mp ((mem_visit order _).mp hfield))
      · rw [List.mem_singleton.mp hfield]
        unfold connectionField
        cases response.closeConnection <;> decide +kernel
    simp [fieldLine, hclean.1.2.2, hclean.2.2.2]
  have hcr : (0 : Byte) ≠ CR := by decide
  have hlf : (0 : Byte) ≠ LF := by decide
  have hhead : (0 : Byte) ∉ withCrlf (response.headLines order) := by
    intro hmem
    obtain ⟨line, hline, hzero⟩ := List.mem_flatMap.mp hmem
    have hline0 : (0 : Byte) ∈ line := by simpa [hcr, hlf] using hzero
    rcases List.mem_cons.mp hline with rfl | hline
    · exact hstatus hline0
    · obtain ⟨field, hmemField, rfl⟩ := List.mem_map.mp hline
      exact hfield field hmemField hline0
  rw [getResponse_eq, List.mem_append]
  simp [hhead, hcr, hlf]

/-- All of the response is appended, the part after its head is this body, and
the one `Content-Length` field has the body's length. -/
def SentWhole {B : Type} [Buffer B] (order : IterationOrder Bytes Bytes)
    (response : HttpResponse) (body : Bytes) (buff : B) : Prop :=
  Buffer.readable (response.appendToBuffer order buff) =
      Buffer.readable buff ++ response.getResponse order ∧
    (splitHead CR LF true (response.getResponse order)).map Prod.snd = some body ∧
    (response.writtenFields order).filter (fun field => field.1 = ascii "Content-Length") =
      [(ascii "Content-Length", decimal body.length)]

/-- A name is on one of the written headers at most. -/
theorem filter_writtenFields (order : IterationOrder Bytes Bytes) {response : HttpResponse}
    {key value : Bytes} (hkey : key ≠ connectionName)
    (h : response.responseHeaders.lookup key = some value) :
    (response.writtenFields order).filter (fun field => field.1 = key) = [(key, value)] := by
  have hvisit := order.visit_perm response.responseHeaders
  have hother : [response.connectionField].filter (fun field => field.1 = key) = [] := by
    simpa [connectionField] using Ne.symm hkey
  rw [writtenFields, List.filter_append, hother, List.append_nil]
  apply filter_of_mem
  · exact (hvisit.map Prod.fst).nodup_iff.mpr (fields_nodup _)
  · exact (mem_visit order _).mpr (mem_fields_iff.mpr h)

/-- A response is sent whole exactly when its body has no zero byte: the text
goes through `c_str()`. -/
theorem sentWhole_iff {B : Type} [Buffer B] (order : IterationOrder Bytes Bytes)
    (close : Bool) (calls : List SetterCall) (hcalls : ∀ call ∈ calls, call.Clean)
    (body : Bytes) (hbody : SetterCall.lastBody calls = some body) (buff : B) :
    (build close calls).SentWhole order body buff ↔ 0 ∉ body := by
  have hclean := build_headClean close hcalls
  obtain ⟨hset, hlength⟩ := build_announces close hcalls hbody
  have hzero := zero_mem_getResponse_iff order hclean
  rw [hset] at hzero
  constructor
  · rintro ⟨happended, _⟩ hmem
    rw [appendToBuffer, Buffer.readable_append, List.append_cancel_left_eq,
      List.takeWhile_eq_self_iff] at happended
    exact absurd (happended 0 (hzero.mpr hmem)) (by decide)
  · intro hnone
    refine ⟨?_, ?_, filter_writtenFields order (by decide +kernel) hlength⟩
    · rw [appendToBuffer, Buffer.readable_append, List.takeWhile_eq_self_iff.mpr]
      intro c hc
      have hne : c ≠ 0 := fun hsame => hnone (hzero.mp (hsame ▸ hc))
      simpa using hne
    · rw [splitHead_getResponse order hclean.headFree, Option.map_some, hset]

theorem sentWhole_plain :
    (build true [.setResponseBody (ascii "hello")]).SentWhole .byEntry (ascii "hello")
      (ascii "before") :=
  have hlength : (ascii "hello").length < UInt64.size := by decide +kernel
  (sentWhole_iff .byEntry true [.setResponseBody (ascii "hello")]
    (List.forall_mem_singleton.mpr hlength) (ascii "hello") rfl
    (ascii "before")).mpr (by decide +kernel)

/-- One zero byte is announced and not sent. -/
theorem not_sentWhole_zero :
    ¬ (build true [.setResponseBody [0]]).SentWhole .byEntry [0] ([] : Bytes) := by
  rintro ⟨happended, _⟩
  exact absurd happended (by decide +kernel)

end HttpResponse

end CuteHttpServer
