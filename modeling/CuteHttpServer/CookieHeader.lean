/-
The session id in a `Cookie` header.  It is searched for as text, so another
cookie that has the text in its name or value can take its place.
-/
import CuteHttpServer.SessionManager

namespace CuteHttpServer

open ByteString DelimitedText KeyedMap

/-- One cookie, as a client holds it. -/
structure Cookie where
  name : Bytes
  value : Bytes
  name_free : ∀ c ∈ name, c ≠ 61 ∧ c ≠ 59 ∧ isBlank c = false
  value_free : 59 ∉ value

namespace Cookie

def text (cookie : Cookie) : Bytes := cookie.name ++ 61 :: cookie.value

/-- Cookies as they stand in the header, with `; ` between them. -/
def header (cookies : List Cookie) : Bytes :=
  List.intercalate [59, 32] (cookies.map text)

abbrev sessionidName : Bytes := ascii "sessionid"

/-- The value of the first cookie that is named `sessionid`, empty if there is
none. -/
def sessionValue (cookies : List Cookie) : Bytes :=
  (fieldValue (cookies.map fun cookie => (cookie.name, cookie.value))
    sessionidName).getD []

/-- What stands behind `sessionid=` in the text of a cookie: its value, if the
name ends that way, or else what follows the text in its value. -/
def mention (cookie : Cookie) : Option Bytes :=
  if sessionidName <:+ cookie.name then some cookie.value
  else textBehind SessionManager.sessionidField cookie.value

/-- No cookie before the session cookie, or among all cookies if there is none,
has the text `sessionid=` in it; the first one that does has at least the
right value behind it. -/
def NoneMisleads : List Cookie → Prop
  | [] => True
  | cookie :: rest =>
      if cookie.name = sessionidName then True
      else
        match cookie.mention with
        | some text => text = sessionValue rest
        | none => NoneMisleads rest

theorem text_free (cookie : Cookie) : 59 ∉ cookie.text := by
  intro hmem
  rcases List.mem_append.mp hmem with hname | hrest
  · exact (cookie.name_free 59 hname).2.1 rfl
  · rcases List.mem_cons.mp hrest with hequals | hvalue
    · exact absurd hequals (by decide)
    · exact cookie.value_free hvalue

theorem textBehind_text (cookie : Cookie) :
    textBehind SessionManager.sessionidField cookie.text = cookie.mention := by
  have hkey : (61 : Byte) ∉ sessionidName := by decide +kernel
  have hname : 61 ∉ cookie.name := fun hmem => (cookie.name_free 61 hmem).1 rfl
  exact textBehind_key hkey hname cookie.value

theorem mention_free {cookie : Cookie} {text : Bytes} (h : cookie.mention = some text) :
    59 ∉ text := by
  rw [← textBehind_text, textBehind_eq, Option.map_eq_some_iff] at h
  obtain ⟨position, _, rfl⟩ := h
  exact fun hmem => cookie.text_free (List.mem_of_mem_drop hmem)

/-- What the search finds in a header: the text behind `sessionid=`, up to the
end of the cookie it is in. -/
def found (header : Bytes) : Bytes :=
  ((textBehind SessionManager.sessionidField header).map
    (List.takeWhile (· ≠ 59))).getD []

theorem found_singleton (cookie : Cookie) :
    found cookie.text = cookie.mention.getD [] := by
  rw [found, textBehind_text]
  cases hmention : cookie.mention with
  | none => rfl
  | some text =>
      have hfree := mention_free hmention
      rw [Option.map_some, Option.getD_some, Option.getD_some, takeWhile_ne_self hfree]

theorem found_cons (cookie : Cookie) (rest : Bytes) :
    found (cookie.text ++ 59 :: 32 :: rest) = cookie.mention.getD (found rest) := by
  have hsemicolon : (59 : Byte) ∉ SessionManager.sessionidField := by decide +kernel
  have hblank : (32 : Byte) ∉ SessionManager.sessionidField := by decide +kernel
  have hne : SessionManager.sessionidField ≠ [] := by decide +kernel
  have hrest : textBehind SessionManager.sessionidField (32 :: rest) =
      textBehind SessionManager.sessionidField rest := by
    have hshift := textBehind_append_cons hblank hne [] rest
    rw [List.nil_append] at hshift
    rw [hshift]
    rfl
  rw [found, textBehind_append_cons hsemicolon hne, textBehind_text, hrest]
  cases hmention : cookie.mention with
  | none => rfl
  | some text =>
      have hcut := takeWhile_ne (mention_free hmention) (32 :: rest)
      rw [Option.map_some, Option.some_or, Option.map_some, Option.getD_some, hcut,
        Option.getD_some]

theorem header_cons_cons (cookie next : Cookie) (rest : List Cookie) :
    header (cookie :: next :: rest) =
      cookie.text ++ 59 :: 32 :: header (next :: rest) := by
  simp [header, List.intercalate_cons_cons]

/-- The first cookie that has the text in it decides. -/
theorem found_header (cookies : List Cookie) :
    found (header cookies) = (cookies.findSome? mention).getD [] := by
  induction cookies with
  | nil => rfl
  | cons cookie rest ih =>
      cases rest with
      | nil =>
          have hone : header [cookie] = cookie.text := by simp [header]
          rw [hone, found_singleton]
          cases hmention : cookie.mention <;> simp [List.findSome?, hmention]
      | cons next rest =>
          rw [header_cons_cons, found_cons, ih]
          cases hmention : cookie.mention <;> simp [List.findSome?, hmention]

theorem mention_of_name {cookie : Cookie} (h : cookie.name = sessionidName) :
    cookie.mention = some cookie.value := by
  rw [mention, if_pos (h ▸ List.suffix_refl _)]

theorem sessionValue_cons (cookie : Cookie) (rest : List Cookie) :
    sessionValue (cookie :: rest) =
      if cookie.name = sessionidName then cookie.value else sessionValue rest := by
  unfold sessionValue
  rw [List.map_cons, fieldValue_cons]
  by_cases hname : cookie.name = sessionidName
  · rw [if_pos hname, if_pos hname.symm]
    rfl
  · rw [if_neg hname, if_neg (Ne.symm hname), Option.none_or]

/-- What decides is the session cookie exactly if none misleads. -/
theorem findSome?_mention_iff (cookies : List Cookie) :
    (cookies.findSome? mention).getD [] = sessionValue cookies ↔ NoneMisleads cookies := by
  induction cookies with
  | nil => exact iff_of_true rfl trivial
  | cons cookie rest ih =>
      rw [List.findSome?_cons, sessionValue_cons, NoneMisleads]
      by_cases hname : cookie.name = sessionidName
      · rw [if_pos hname, if_pos hname, mention_of_name hname]
        exact iff_of_true rfl trivial
      · rw [if_neg hname, if_neg hname]
        cases cookie.mention with
        | some text => exact Iff.rfl
        | none => exact ih

instance (cookies : List Cookie) : Decidable (NoneMisleads cookies) :=
  decidable_of_iff _ (findSome?_mention_iff cookies)

end Cookie

namespace SessionManager

open Cookie

/-- The positions in the code are those of the text behind `sessionid=`. -/
theorem getSessionIdFromRequestCookie_eq (request : HttpRequest) :
    getSessionIdFromRequestCookie request =
      found (request.getHeader (ascii "Cookie")) := by
  unfold getSessionIdFromRequestCookie found
  generalize request.getHeader (ascii "Cookie") = cookie
  rw [textBehind_eq]
  by_cases hempty : cookie = []
  · subst hempty
    rfl
  · simp only [hempty, if_false]
    cases hfind : findSubstring sessionidField cookie with
    | none => rfl
    | some position =>
        have hstart := drop_of_findSubstring hfind
        have hsemicolon : (59 : Byte) ∉ sessionidField := by decide +kernel
        simp only [Option.map_some, Option.getD_some]
        generalize cookie.drop (position + sessionidField.length) = after at hstart ⊢
        simp only [hstart, List.drop_left]
        by_cases hmem : 59 ∈ after
        · obtain ⟨text, later, rfl, htext⟩ := List.eq_append_cons_of_mem hmem
          have hfree : 59 ∉ sessionidField ++ text := by simp [hsemicolon, htext]
          rw [← List.append_assoc, idxOf?_append_cons hfree, takeWhile_ne htext]
          simp
        · have hnone : (sessionidField ++ after).idxOf? 59 = none := by
            rw [List.idxOf?_eq_none_iff]
            simp [hsemicolon, hmem]
          rw [hnone, takeWhile_ne_self hmem]

/-- The session id that is read from the cookies is the session cookie's
exactly if no cookie before it misleads the search. -/
theorem getSessionIdFromRequestCookie_iff (cookies : List Cookie) (request : HttpRequest)
    (h : request.getHeader (ascii "Cookie") = header cookies) :
    getSessionIdFromRequestCookie request = sessionValue cookies ↔
      NoneMisleads cookies := by
  rw [getSessionIdFromRequestCookie_eq, h, found_header]
  exact findSome?_mention_iff cookies

/-- A request with these cookies. -/
def withCookies (cookies : List Cookie) : HttpRequest :=
  (HttpRequest.new 0).addHeader (ascii "Cookie") (header cookies)

def userCookie : Cookie where
  name := ascii "userid"
  value := ascii "789xyz"
  name_free := by decide +kernel
  value_free := by decide +kernel

def sessionCookie : Cookie where
  name := ascii "sessionid"
  value := ascii "abc123"
  name_free := by decide +kernel
  value_free := by decide +kernel

/-- A cookie of another application, whose name ends in the same word. -/
def xsessionCookie : Cookie where
  name := ascii "xsessionid"
  value := ascii "evil"
  name_free := by decide +kernel
  value_free := by decide +kernel

theorem getSessionIdFromRequestCookie_user :
    getSessionIdFromRequestCookie (withCookies [userCookie, sessionCookie]) =
      ascii "abc123" :=
  (getSessionIdFromRequestCookie_iff [userCookie, sessionCookie] _ rfl).mpr
    (by decide +kernel)

/-- The other application's cookie overrides the session. -/
theorem getSessionIdFromRequestCookie_misled :
    getSessionIdFromRequestCookie (withCookies [xsessionCookie, sessionCookie]) ≠
      sessionValue [xsessionCookie, sessionCookie] := by
  decide +kernel

end SessionManager

end CuteHttpServer
