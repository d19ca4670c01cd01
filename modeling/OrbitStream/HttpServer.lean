/-
OrbitStream/HttpServer.lean

The status web server (`HttpRequestHandler` of `http_server/http_server.cc`, with
`HttpRequest`, `HttpResponse` and `HttpHandler` of `http_common.h` and `http_handler.h`), the
sign-in page (`pretty_signin_handler.cc`), and the server of `SetupHttpServer`
(`server/orbit_stream_server.cc`).

libmicrohttpd calls `HttpRequestHandler` once with the headers of a request, once with each
piece of its body, and once at its end.  The request is made in one of these calls and is
kept for the later ones behind a pointer, that is one to a dummy at first.  A body in one piece is
read right; with two pieces a request that was not made is used, and with none the dummy
is one (`request_read`).

What a client may see depends on its session: a page in auth mode is made only if the session
has a value for the session key.  In every interleaving of requests this is so only after
somebody has signed in under the same cookie (`signed_in`), if `use_http_auth` is set, as it is
by default.
-/
import Mathlib.Data.List.TakeWhile
import OrbitStream.HttpSession
import OrbitStream.StrUtil

namespace Orbit.Http

open Lib

/-! ### Requests -/

/-- `HttpRequest::QueryMap` and `HttpRequest::HeaderMap`. -/
abbrev ValueMap := Std.TreeMap String String iless

/-- `HttpRequest`. -/
structure HttpRequest where
  queryMap : ValueMap := ∅
  headerMap : ValueMap := ∅
  method : String := ""
  url : String := ""
  tempData : String := ""

namespace HttpRequest

def getQueryValue (r : HttpRequest) (key : String) : Option String := r.queryMap[key]?

def getHeaderValue (r : HttpRequest) (key : String) : Option String := r.headerMap[key]?

def addHeader (r : HttpRequest) (key value : String) : HttpRequest :=
  { r with headerMap := r.headerMap.insertIfNew key value }

def addQueryParam (r : HttpRequest) (key value : String) : HttpRequest :=
  { r with queryMap := r.queryMap.insertIfNew key value }

def appendHeader (r : HttpRequest) (key value : String) : HttpRequest :=
  match r.getHeaderValue key with
  | some oldValue => { r with headerMap := r.headerMap.insert key (oldValue ++ value) }
  | none => { r with headerMap := r.headerMap.insertIfNew key value }

def appendQueryParam (r : HttpRequest) (key value : String) : HttpRequest :=
  match r.getQueryValue key with
  | some oldValue => { r with queryMap := r.queryMap.insert key (oldValue ++ value) }
  | none => { r with queryMap := r.queryMap.insertIfNew key value }

def appendTempData (r : HttpRequest) (uploadData : String) : HttpRequest :=
  if r.tempData = "" then { r with tempData := uploadData }
  else { r with tempData := r.tempData ++ uploadData }

end HttpRequest

/-! ### The values of a request -/

/-- `MHD_ValueKind`. -/
inductive ValueKind
  | responseHeader
  | header
  | cookie
  | postdata
  | getArgument
  | footer
  deriving DecidableEq, Repr

/-- `KeyValueIterator`, and whether the iteration goes on: not after a key without a value. -/
def keyValueIterator (kind : ValueKind) (r : HttpRequest) (key : String) :
    Option String → HttpRequest × Bool
  | none => (r, false)
  | some value =>
      match kind with
      | .header => (r.addHeader key value, true)
      | .cookie => (r.addHeader key value, true)
      | .getArgument => (r.addQueryParam key value, true)
      | _ => (r, true)

/-- `MHD_get_connection_values` with `KeyValueIterator`. -/
def getConnectionValues (kind : ValueKind) :
    HttpRequest → List (String × Option String) → HttpRequest
  | r, [] => r
  | r, (key, value) :: values =>
      match keyValueIterator kind r key value with
      | (r, true) => getConnectionValues kind r values
      | (r, false) => r

/-- `PostKeyValueIterator`, for a piece of a value. -/
def postKeyValueIterator (kind : ValueKind) (r : HttpRequest) (piece : String × String) :
    HttpRequest :=
  if piece.2 = "" then r
  else
    match kind with
    | .cookie => r.appendHeader piece.1 piece.2
    | .header => r.appendHeader piece.1 piece.2
    | .postdata => r.appendQueryParam piece.1 piece.2
    | _ => r

/-! ### The calls of libmicrohttpd -/

/-- What libmicrohttpd knows of a request. -/
structure Connection where
  url : String
  method : String
  /-- the arguments of the URL; a key can stand without a value -/
  arguments : List (String × Option String) := []
  cookies : List (String × Option String) := []
  /-- the body, in the pieces in which it comes in -/
  body : List String := []
  /-- the pieces of values that a post processor makes of a body; there is none for an
  encoding that is not known -/
  postProcess : Option (String → List (String × String)) := none
  body_ne : ∀ piece ∈ body, piece ≠ "" := by simp

/-- Where the context pointer of a request points to. -/
inductive Ptr
  | null
  | dummy
  | request (r : HttpRequest)

/-- How a call ends. -/
inductive Outcome
  /-- `MHD_YES`; the answer is for a later call -/
  | more (ptr : Ptr)
  /-- `MHD_NO` -/
  | refused
  /-- the answer to a GET request with a body -/
  | notImplemented
  /-- the request is complete and goes to its handler -/
  | dispatched (r : HttpRequest)
  /-- something that is not a request is used as one -/
  | undefined

/-- `HttpRequestHandler`, up to where the request is complete. -/
def httpRequestHandler (c : Connection) (ptr : Ptr) (uploadData : String) : Outcome :=
  if c.method ≠ "POST" ∧ c.method ≠ "GET" then .refused
  else
    match ptr with
    | .null => .more .dummy
    | ptr =>
        if c.method = "GET" then
          if uploadData ≠ "" then .notImplemented
          else
            let request : HttpRequest := { method := c.method, url := c.url }
            let request := getConnectionValues .getArgument request c.arguments
            .dispatched (getConnectionValues .cookie request c.cookies)
        else if uploadData ≠ "" then
          match ptr with
          | .dummy =>
              let request := getConnectionValues .cookie {} c.cookies
              .more (.request (request.appendTempData uploadData))
          -- the variable is set in the branch above only
          | _ => .undefined
        else
          match ptr with
          | .request request =>
              match c.postProcess with
              | none => .refused
              | some process =>
                  let request := (process request.tempData).foldl
                    (postKeyValueIterator .postdata) request
                  .dispatched { request with method := c.method, url := c.url }
          | _ => .undefined

/-- The calls for the rest of the body and for its end, until one of them ends the request. -/
def calls (c : Connection) : Ptr → List String → Outcome
  | ptr, [] => httpRequestHandler c ptr ""
  | ptr, uploadData :: body =>
      match httpRequestHandler c ptr uploadData with
      | .more ptr => calls c ptr body
      | outcome => outcome

/-- All calls for a request. -/
def serve (c : Connection) : Outcome :=
  match httpRequestHandler c .null "" with
  | .more ptr => calls c ptr c.body
  | outcome => outcome

/-! ### What a request holds -/

/-- The values up to the first key without one. -/
def valued (values : List (String × Option String)) : List (String × String) :=
  match values with
  | (key, some value) :: values => (key, value) :: valued values
  | _ => []

/-- The values of a key in a form. -/
def valuesOf (key : String) : List (String × String) → List String
  | [] => []
  | (name, value) :: fields =>
      if iless name key = .eq then value :: valuesOf key fields else valuesOf key fields

/-- The values of a key, put together; an empty value is none. -/
def joined (fields : List (String × String)) (key : String) : Option String :=
  let value := String.join (valuesOf key fields)
  if value = "" then none else some value

/-- The pieces of values are those of the fields of a form, one field after the other: each
value may be cut anywhere. -/
inductive Cut : List (String × String) → List (String × String) → Prop
  | nil : Cut [] []
  | cons (key : String) (parts : List String) {fields pieces : List (String × String)} :
      Cut fields pieces →
      Cut ((key, String.join parts) :: fields) (parts.map (fun part => (key, part)) ++ pieces)

section

variable {r : HttpRequest} {fields pieces : List (String × String)}

/-- The first value of a key stays. -/
theorem getElem?_insertIfNew (values : ValueMap) (key value key' : String) :
    (values.insertIfNew key value)[key']? =
      values[key']?.or (if iless key key' = .eq then some value else none) :=
  HttpSession.getValue_setValue ⟨[], values⟩ key value key'

theorem getConnectionValues_getArgument (values : List (String × Option String)) :
    (∀ key, (getConnectionValues .getArgument r values).getQueryValue key =
      (r.getQueryValue key).or (firstSet (valued values) key)) ∧
    (getConnectionValues .getArgument r values).headerMap = r.headerMap ∧
    (getConnectionValues .getArgument r values).url = r.url := by
  induction values generalizing r with
  | nil => exact ⟨fun key => (Option.or_none).symm, rfl, rfl⟩
  | cons v values ih =>
    obtain ⟨name, - | value⟩ := v
    · exact ⟨fun key => (Option.or_none).symm, rfl, rfl⟩
    · obtain ⟨hquery, hheader, hurl⟩ := @ih (r.addQueryParam name value)
      refine ⟨fun key => ?_, hheader, hurl⟩
      show (getConnectionValues .getArgument (r.addQueryParam name value) values).getQueryValue key
        = _
      rw [hquery, valued, firstSet_cons]
      show ((r.queryMap.insertIfNew name value)[key]?).or _ = r.queryMap[key]?.or _
      rw [getElem?_insertIfNew, Option.or_assoc]
      split
      · rfl
      · rfl

theorem getConnectionValues_cookie (values : List (String × Option String)) :
    (∀ key, (getConnectionValues .cookie r values).getHeaderValue key =
      (r.getHeaderValue key).or (firstSet (valued values) key)) ∧
    (getConnectionValues .cookie r values).queryMap = r.queryMap ∧
    (getConnectionValues .cookie r values).url = r.url ∧
    (getConnectionValues .cookie r values).tempData = r.tempData := by
  induction values generalizing r with
  | nil => exact ⟨fun key => (Option.or_none).symm, rfl, rfl, rfl⟩
  | cons v values ih =>
    obtain ⟨name, - | value⟩ := v
    · exact ⟨fun key => (Option.or_none).symm, rfl, rfl, rfl⟩
    · obtain ⟨hheader, hquery, hurl, hdata⟩ := @ih (r.addHeader name value)
      refine ⟨fun key => ?_, hquery, hurl, hdata⟩
      show (getConnectionValues .cookie (r.addHeader name value) values).getHeaderValue key = _
      rw [hheader, valued, firstSet_cons]
      show ((r.headerMap.insertIfNew name value)[key]?).or _ = r.headerMap[key]?.or _
      rw [getElem?_insertIfNew, Option.or_assoc]
      split
      · rfl
      · rfl

/-! ### Forms -/

theorem getQueryValue_appendQueryParam (name value key : String) :
    (r.appendQueryParam name value).getQueryValue key =
      if iless name key = .eq then some ((r.getQueryValue key).getD "" ++ value)
      else r.getQueryValue key := by
  have hsame : iless name key = .eq → r.getQueryValue name = r.getQueryValue key :=
    fun h => Std.TreeMap.getElem?_congr h
  rw [HttpRequest.appendQueryParam]
  rcases hold : r.getQueryValue name with - | oldValue
  · show (r.queryMap.insertIfNew name value)[key]? = _
    rw [getElem?_insertIfNew]
    split
    · rename_i h
      rw [← hsame h, hold]
      show (r.getQueryValue key).or _ = _
      rw [← hsame h, hold]
      simp
    · exact Option.or_none
  · show (r.queryMap.insert name (oldValue ++ value))[key]? = _
    rw [Std.TreeMap.getElem?_insert]
    split
    · rename_i h
      rw [← hsame h, hold]
      rfl
    · rfl

theorem valuesOf_append (key : String) (fields pieces : List (String × String)) :
    valuesOf key (fields ++ pieces) = valuesOf key fields ++ valuesOf key pieces := by
  induction fields with
  | nil => rfl
  | cons field fields ih =>
    show (if _ then _ :: valuesOf key (fields ++ pieces) else valuesOf key (fields ++ pieces)) =
      (if _ then _ :: valuesOf key fields else valuesOf key fields) ++ _
    rw [ih]
    split
    · rfl
    · rfl

theorem valuesOf_map (key name : String) (parts : List String) :
    valuesOf key (parts.map fun part => (name, part)) =
      if iless name key = .eq then parts else [] := by
  induction parts with
  | nil => exact (ite_self []).symm
  | cons part parts ih =>
    show (if _ then part :: valuesOf key (parts.map _) else valuesOf key (parts.map _)) = _
    rw [ih]
    split
    · rfl
    · rfl

theorem joined_append_singleton (name value key : String) (hvalue : value ≠ "") :
    joined (pieces ++ [(name, value)]) key =
      if iless name key = .eq then some ((joined pieces key).getD "" ++ value)
      else joined pieces key := by
  rw [joined, joined, valuesOf_append, String.join_append]
  by_cases h : iless name key = .eq
  · have hone : String.join (valuesOf key [(name, value)]) = value := by
      rw [valuesOf, if_pos h, valuesOf, String.join_cons, String.join_nil, String.append_empty]
    rw [if_pos h, hone]
    show (if _ ++ value = "" then none else some (_ ++ value)) = _
    rw [if_neg fun hempty => hvalue (String.append_eq_empty_iff.mp hempty).2]
    split
    · rename_i hnone
      rw [hnone]
      rfl
    · rfl
  · have hnone : String.join (valuesOf key [(name, value)]) = "" := by
      rw [valuesOf, if_neg h, valuesOf, String.join_nil]
    rw [if_neg h, hnone, String.append_empty]

/-- The pieces of a form are put together again. -/
theorem getQueryValue_pieces (hr : ∀ key, r.getQueryValue key = none) (key : String) :
    (pieces.foldl (postKeyValueIterator .postdata) r).getQueryValue key = joined pieces key := by
  induction pieces using List.reverseRecOn with
  | nil => exact hr key
  | append_singleton pieces piece ih =>
    obtain ⟨name, value⟩ := piece
    rw [List.foldl_append, List.foldl_cons, List.foldl_nil, postKeyValueIterator]
    by_cases hempty : value = ""
    · have hnothing : String.join (valuesOf key [(name, value)]) = "" := by
        rw [valuesOf, valuesOf]
        split
        · rw [String.join_cons, hempty]
          rfl
        · rfl
      rw [if_pos hempty, ih, joined, joined, valuesOf_append, String.join_append, hnothing,
        String.append_empty]
    · rw [if_neg hempty, joined_append_singleton name value key hempty, ← ih]
      exact getQueryValue_appendQueryParam name value key

/-- It does not matter where the values of a form are cut. -/
theorem Cut.join_valuesOf (h : Cut fields pieces) (key : String) :
    String.join (valuesOf key pieces) = String.join (valuesOf key fields) := by
  induction h with
  | nil => rfl
  | cons name parts _ ih =>
    rw [valuesOf_append, String.join_append, ih, valuesOf_map, valuesOf]
    split
    · exact String.join_cons.symm
    · rw [String.join_nil, String.empty_append]

end

/-! ### Serving a request -/

/-- A GET request. -/
def getRequest (c : Connection) : HttpRequest :=
  getConnectionValues .cookie
    (getConnectionValues .getArgument { method := c.method, url := c.url } c.arguments) c.cookies

/-- A POST request with this body. -/
def postRequest (c : Connection) (process : String → List (String × String)) (body : String) :
    HttpRequest :=
  let request := getConnectionValues .cookie {} c.cookies
  { (process body).foldl (postKeyValueIterator .postdata) { request with tempData := body } with
    method := c.method, url := c.url }

theorem serve_get {c : Connection} (h : c.method = "GET") :
    serve c = if c.body = [] then .dispatched (getRequest c) else .notImplemented := by
  have hmethod : ¬(c.method ≠ "POST" ∧ c.method ≠ "GET") := fun hne => hne.2 h
  rw [serve, httpRequestHandler, if_neg hmethod]
  show calls c .dummy c.body = _
  have hne := c.body_ne
  rcases hbody : c.body with - | ⟨piece, body⟩
  · rw [calls, httpRequestHandler, if_neg hmethod]
    show (if c.method = "GET" then _ else _) = _
    rw [if_pos h]
    rfl
  · rw [hbody] at hne
    have hpiece : piece ≠ "" := hne piece List.mem_cons_self
    have hcall : httpRequestHandler c .dummy piece = .notImplemented := by
      rw [httpRequestHandler, if_neg hmethod]
      show (if c.method = "GET" then _ else _) = _
      rw [if_pos h, if_pos hpiece]
    rw [calls, hcall]
    rfl

theorem serve_post {c : Connection} (h : c.method = "POST") :
    serve c = match c.body with
      | [body] =>
          match c.postProcess with
          | none => .refused
          | some process => .dispatched (postRequest c process body)
      | _ => .undefined := by
  have hmethod : ¬(c.method ≠ "POST" ∧ c.method ≠ "GET") := fun hne => hne.1 h
  have hget : c.method ≠ "GET" := by
    rw [h]
    decide
  rw [serve, httpRequestHandler, if_neg hmethod]
  show calls c .dummy c.body = _
  have hne := c.body_ne
  rcases hbody : c.body with - | ⟨piece, body⟩
  · rw [calls, httpRequestHandler, if_neg hmethod]
    show (if c.method = "GET" then _ else _) = _
    rw [if_neg hget]
    rfl
  · rw [hbody] at hne
    have hpiece : piece ≠ "" := hne piece List.mem_cons_self
    have hdata : (getConnectionValues .cookie {} c.cookies).tempData = "" :=
      (getConnectionValues_cookie c.cookies).2.2.2
    have hcall : httpRequestHandler c .dummy piece = .more (.request
        { getConnectionValues .cookie {} c.cookies with tempData := piece }) := by
      rw [httpRequestHandler, if_neg hmethod]
      show (if c.method = "GET" then _ else _) = _
      rw [if_neg hget, if_pos hpiece]
      show Outcome.more (.request (HttpRequest.appendTempData _ piece)) = _
      rw [HttpRequest.appendTempData, if_pos hdata]
    rw [calls, hcall]
    show calls c (.request _) body = _
    rcases body with - | ⟨next, body⟩
    · rw [calls, httpRequestHandler, if_neg hmethod]
      show (if c.method = "GET" then _ else _) = _
      rw [if_neg hget]
      rcases hprocess : c.postProcess with - | process
      · simp
      · simp [postRequest]
    · have hnext : next ≠ "" := hne next (List.mem_cons_of_mem _ List.mem_cons_self)
      have hlost : ∀ r, httpRequestHandler c (.request r) next = .undefined := by
        intro r
        rw [httpRequestHandler, if_neg hmethod]
        show (if c.method = "GET" then _ else _) = _
        rw [if_neg hget, if_pos hnext]
      rw [calls, hlost]

theorem serve_other {c : Connection} (hpost : c.method ≠ "POST") (hget : c.method ≠ "GET") :
    serve c = .refused := by
  rw [serve, httpRequestHandler, if_pos ⟨hpost, hget⟩]

theorem getRequest_spec (c : Connection) :
    (getRequest c).url = c.url ∧
    (∀ key, (getRequest c).getHeaderValue key = firstSet (valued c.cookies) key) ∧
    ∀ key, (getRequest c).getQueryValue key = firstSet (valued c.arguments) key := by
  obtain ⟨hheader, hquery, hurl, -⟩ := @getConnectionValues_cookie
    (getConnectionValues .getArgument { method := c.method, url := c.url } c.arguments) c.cookies
  obtain ⟨hquery', hheader', hurl'⟩ := @getConnectionValues_getArgument
    { method := c.method, url := c.url } c.arguments
  refine ⟨hurl.trans hurl', fun key => ?_, fun key => ?_⟩
  · rw [getRequest, hheader, HttpRequest.getHeaderValue, hheader']
    show (∅ : ValueMap)[key]?.or _ = _
    rw [Std.TreeMap.getElem?_emptyc, Option.none_or]
  · rw [getRequest, HttpRequest.getQueryValue, hquery]
    show (getConnectionValues .getArgument _ c.arguments).getQueryValue key = _
    rw [hquery']
    show (∅ : ValueMap)[key]?.or _ = _
    rw [Std.TreeMap.getElem?_emptyc, Option.none_or]

theorem headerMap_pieces (r : HttpRequest) (pieces : List (String × String)) :
    (pieces.foldl (postKeyValueIterator .postdata) r).headerMap = r.headerMap := by
  induction pieces generalizing r with
  | nil => rfl
  | cons piece pieces ih =>
    rw [List.foldl_cons, ih, postKeyValueIterator]
    split
    · rfl
    · show (r.appendQueryParam piece.1 piece.2).headerMap = _
      rw [HttpRequest.appendQueryParam]
      split
      · rfl
      · rfl

theorem postRequest_spec (c : Connection) (process : String → List (String × String))
    (body : String) :
    (postRequest c process body).url = c.url ∧
    (∀ key, (postRequest c process body).getHeaderValue key = firstSet (valued c.cookies) key) ∧
    ∀ key, (postRequest c process body).getQueryValue key = joined (process body) key := by
  obtain ⟨hheader, hquery, -, -⟩ := @getConnectionValues_cookie {} c.cookies
  refine ⟨rfl, fun key => ?_, fun key => ?_⟩
  · rw [HttpRequest.getHeaderValue, postRequest, headerMap_pieces]
    show (getConnectionValues .cookie {} c.cookies).getHeaderValue key = _
    rw [hheader]
    show (∅ : ValueMap)[key]?.or _ = _
    rw [Std.TreeMap.getElem?_emptyc, Option.none_or]
  · refine getQueryValue_pieces (fun key => ?_) key
    show (getConnectionValues .cookie {} c.cookies).queryMap[key]? = none
    rw [hquery]
    exact Std.TreeMap.getElem?_emptyc

/-- **Reading a request.**  A request is read if it is a GET without a body, or a POST of a known
encoding whose body comes in one piece; a POST with any other number of pieces goes wrong.
A request that is read has the URL and the cookies of the client, and the arguments of its URL or
the fields of its form, wherever the post processor has cut these. -/
theorem request_read (c : Connection) :
    ((∃ r, serve c = .dispatched r) ↔ c.method = "GET" ∧ c.body = [] ∨
      c.method = "POST" ∧ c.body.length = 1 ∧ c.postProcess.isSome) ∧
    (serve c = .undefined ↔ c.method = "POST" ∧ c.body.length ≠ 1) ∧
    ∀ r, serve c = .dispatched r →
      r.url = c.url ∧ (∀ key, r.getHeaderValue key = firstSet (valued c.cookies) key) ∧
      (c.method = "GET" → ∀ key, r.getQueryValue key = firstSet (valued c.arguments) key) ∧
      (c.method = "POST" → ∀ process ∈ c.postProcess, ∀ fields,
        Cut fields (process (String.join c.body)) →
          ∀ key, r.getQueryValue key = joined fields key) := by
  have hne : ¬"GET" = "POST" := by decide
  by_cases hget : c.method = "GET"
  · rw [serve_get hget, hget]
    by_cases hbody : c.body = []
    · simp only [hbody, if_true]
      refine ⟨⟨fun _ => .inl ⟨trivial, trivial⟩, fun _ => ⟨_, rfl⟩⟩,
        ⟨nofun, fun h => absurd h.1 hne⟩, ?_⟩
      rintro r ⟨rfl⟩
      obtain ⟨hurl, hheader, hquery⟩ := getRequest_spec c
      exact ⟨hurl, hheader, fun _ => hquery, fun h => absurd h hne⟩
    · simp only [hbody, if_false]
      refine ⟨⟨nofun, ?_⟩, ⟨nofun, fun h => absurd h.1 hne⟩, nofun⟩
      rintro (⟨-, h⟩ | ⟨h, -⟩)
      · exact h.elim
      · exact absurd h hne
  · by_cases hpost : c.method = "POST"
    · rw [serve_post hpost, hpost]
      rcases c.body with - | ⟨piece, - | ⟨next, body⟩⟩
      · refine ⟨⟨nofun, ?_⟩, ⟨fun _ => ⟨rfl, nofun⟩, fun _ => rfl⟩, nofun⟩
        rintro (⟨h, -⟩ | ⟨-, h, -⟩)
        · exact absurd h.symm hne
        · cases h
      · rcases c.postProcess with - | process
        · refine ⟨⟨nofun, ?_⟩, ⟨nofun, fun h => absurd rfl h.2⟩, nofun⟩
          rintro (⟨h, -⟩ | ⟨-, -, h⟩)
          · exact absurd h.symm hne
          · cases h
        · refine ⟨⟨fun _ => Or.inr ⟨rfl, rfl, rfl⟩, fun _ => ⟨_, rfl⟩⟩,
            ⟨nofun, fun h => absurd rfl h.2⟩, ?_⟩
          rintro r ⟨rfl⟩
          obtain ⟨hurl, hheader, hquery⟩ := postRequest_spec c process piece
          refine ⟨hurl, hheader, fun h => absurd h.symm hne, ?_⟩
          rintro - process ⟨rfl⟩ fields hcut key
          have hbody : String.join [piece] = piece := by
            rw [String.join_cons, String.join_nil, String.append_empty]
          rw [hbody] at hcut
          rw [hquery, joined, joined, hcut.join_valuesOf]
      · refine ⟨⟨nofun, ?_⟩, ⟨fun _ => ⟨rfl, nofun⟩, fun _ => rfl⟩, nofun⟩
        rintro (⟨h, -⟩ | ⟨-, h, -⟩)
        · exact absurd h.symm hne
        · cases h
    · rw [serve_other hpost hget]
      refine ⟨⟨nofun, ?_⟩, ⟨nofun, fun h => absurd h.1 hpost⟩, nofun⟩
      rintro (⟨h, -⟩ | ⟨h, -⟩)
      · exact absurd h hget
      · exact absurd h hpost

/-- A form that comes in two pieces. -/
example : serve { url := "/signin", method := "POST", body := ["inputEmail=s", "&x=t"] } =
    .undefined := by rfl

/-! ### Handlers -/

/-- `HttpResponse`; of the session it has the values that are set on the copy. -/
structure HttpResponse where
  code : Nat := 200
  content : String := ""
  contentType : String := "text/plain"
  location : String := ""
  sessionData : List (String × String) := []
  deriving DecidableEq

/-- `HttpHandler`. -/
structure HttpHandler where
  authMode : Bool := false
  authLocation : String := ""
  authSessionKey : String := ""
  nextUrl : String := "/"
  handleRequest : HttpRequest → HttpSession → HttpResponse

namespace HttpHandler

/-- The test of `HandleRequestInternal`. -/
def Admits (h : HttpHandler) (session : HttpSession) : Prop :=
  h.authMode = true → ∃ value ∈ session.getValue h.authSessionKey, value ≠ ""

instance (h : HttpHandler) (session : HttpSession) : Decidable (h.Admits session) :=
  inferInstanceAs (Decidable (_ → ∃ value ∈ _, _))

/-- What a client gets that has to sign in first. -/
def redirect (h : HttpHandler) : HttpResponse where
  code := 307
  contentType := "text/html"
  location := h.authLocation
  sessionData := [("next_url", h.nextUrl)]

def handleRequestInternal (h : HttpHandler) (r : HttpRequest) (session : HttpSession) :
    HttpResponse :=
  if h.Admits session then h.handleRequest r session else h.redirect

end HttpHandler

/-- `HttpServer`, as far as requests read it. -/
structure HttpServer where
  handlers : List (String × HttpHandler) := []

namespace HttpServer

def getHttpHandler (s : HttpServer) (uri : String) : Option HttpHandler := s.handlers.lookup uri

end HttpServer

/-- The part of a URL that a handler is registered for. -/
def rootUrl (url : String) : String :=
  match StrUtil.splitStringUsing url.toList ['/'] with
  | part :: _ :: _ => String.ofList ('/' :: part)
  | _ => url

/-! ### The server of the status pages -/

/-- A request that was read, as the sessions see it. -/
def sessionRequest (s : HttpServer) (sid : String) (r : HttpRequest) : Orbit.HttpRequest where
  cookie := r.getHeaderValue "orbit_cookie"
  sid := sid
  handler := (s.getHttpHandler (rootUrl r.url)).map fun handler session =>
    (handler.handleRequestInternal r session).sessionData

/-- A server with its clients, and the ids that new sessions draw. -/
structure System where
  server : HttpServer
  connections : Nat → Connection
  sids : Nat → String

namespace System

/-- The requests of a system that are read. -/
def request (sys : System) (k : Nat) : Option HttpRequest :=
  match serve (sys.connections k) with
  | .dispatched r => some r
  | _ => none

def sessionRequests (sys : System) (k : Nat) : Orbit.HttpRequest :=
  match sys.request k with
  | some r => sessionRequest sys.server (sys.sids k) r
  | none => ⟨none, sys.sids k, none⟩

/-- A step of a request that was read. -/
def step (sys : System) (s : HttpSessionManager) (k : Nat) : HttpSessionManager :=
  if (sys.request k).isSome then s.advance sys.sessionRequests k else s

/-- An interleaving of requests. -/
def run (sys : System) (schedule : List Nat) : HttpSessionManager := schedule.foldl sys.step {}

/-- The cookie that the session of a request is kept under. -/
def cookieOf (sys : System) (k : Nat) : String :=
  (sys.sessionRequests k).cookie.getD (sys.sids k)

end System

/-! ### Where the values of sessions come from -/

section

variable {sys : System} {s : HttpSessionManager} {k : Nat} {cookie key value : String}

/-- Some request that was written back had this cookie and set this value. -/
def SetBefore (sys : System) (s : HttpSessionManager) (cookie key value : String) : Prop :=
  ∃ e ∈ s.completed, sys.cookieOf e.1 = cookie ∧ ∃ p ∈ e.2, iless p.1 key = .eq ∧ p.2 = value

/-- A session whose values were all set before. -/
def Accounted (sys : System) (s : HttpSessionManager) (cookie : String) (session : HttpSession) :
    Prop :=
  ∀ key value, session.getValue key = some value → SetBefore sys s cookie key value

/-- The session that a request works on. -/
def Works (sys : System) (s : HttpSessionManager) (k : Nat) : RequestPhase → Prop
  | .missing cookie session => cookie = sys.cookieOf k ∧ Accounted sys s cookie session
  | .read cookie session => cookie = sys.cookieOf k ∧ Accounted sys s cookie session
  | .handled cookie session sets =>
      cookie = sys.cookieOf k ∧ Accounted sys s cookie session ∧
        ∃ handler ∈ (sys.sessionRequests k).handler, sets = handler session
  | _ => True

/-- What holds in every interleaving. -/
structure Inv (sys : System) (s : HttpSessionManager) : Prop where
  stored : ∀ cookie, ∀ session ∈ s.findSessionByCookie cookie, Accounted sys s cookie session
  works : ∀ k, Works sys s k (s.phase k)
  completed : ∀ e ∈ s.completed, ∃ handler ∈ (sys.sessionRequests e.1).handler,
    ∃ session, e.2 = handler session

theorem SetBefore.mono {s' : HttpSessionManager} (h : SetBefore sys s cookie key value)
    (hsub : ∀ e ∈ s.completed, e ∈ s'.completed) : SetBefore sys s' cookie key value := by
  obtain ⟨e, he, hset⟩ := h
  exact ⟨e, hsub e he, hset⟩

theorem Accounted.mono {s' : HttpSessionManager} {session : HttpSession}
    (h : Accounted sys s cookie session) (hsub : ∀ e ∈ s.completed, e ∈ s'.completed) :
    Accounted sys s' cookie session :=
  fun key value hget => (h key value hget).mono hsub

theorem accounted_new (sid : String) :
    Accounted sys s cookie (({} : HttpSession).setSessionId sid) := by
  intro key value hget
  rw [HttpSessionManager.getValue_new] at hget
  cases hget

theorem Works.mono {s' : HttpSessionManager} {phase : RequestPhase} (h : Works sys s k phase)
    (hsub : ∀ e ∈ s.completed, e ∈ s'.completed) : Works sys s' k phase := by
  cases phase with
  | start => trivial
  | missing cookie session => exact ⟨h.1, h.2.mono hsub⟩
  | read cookie session => exact ⟨h.1, h.2.mono hsub⟩
  | handled cookie session sets => exact ⟨h.1, h.2.1.mono hsub, h.2.2⟩
  | done => trivial

/-- A request goes on; what is stored and what was set before stays or grows. -/
theorem Inv.move {s' : HttpSessionManager} {phase : RequestPhase} (h : Inv sys s)
    (hphase : s'.phase = s.phase) (hsub : ∀ e ∈ s.completed, e ∈ s'.completed)
    (hstored : ∀ cookie, ∀ session ∈ s'.findSessionByCookie cookie,
      Accounted sys s' cookie session)
    (hcompleted : ∀ e ∈ s'.completed, ∃ handler ∈ (sys.sessionRequests e.1).handler,
      ∃ session, e.2 = handler session)
    (hworks : Works sys s' k phase) : Inv sys (s'.move k phase) := by
  refine ⟨hstored, fun j => ?_, hcompleted⟩
  show Works sys s' j (if j = k then phase else s'.phase j)
  split
  · rename_i hjk
    rw [hjk]
    exact hworks
  · rw [hphase]
    exact (h.works j).mono hsub

/-- A session is stored whose values were set before. -/
theorem Inv.insert (h : Inv sys s) {session : HttpSession} (hnew : Accounted sys s cookie session) :
    ∀ c, ∀ session' ∈ (s.updateSession cookie session).findSessionByCookie c,
      Accounted sys s c session' := by
  intro c session' hget
  have hget' : (s.varMap.insert cookie session)[c]? = some session' := hget
  rw [Std.TreeMap.getElem?_insert] at hget'
  split at hget'
  · rename_i hc
    rw [← Std.LawfulEqCmp.eq_of_compare hc, ← Option.some.inj hget']
    exact hnew
  · exact h.stored c session' hget'

theorem Inv.create (h : Inv sys s) {session : HttpSession} (hnew : Accounted sys s cookie session) :
    ∀ c, ∀ session' ∈ (s.createSession session cookie).findSessionByCookie c,
      Accounted sys s c session' := by
  intro c session' hget
  have hget' : (s.varMap.insertIfNew cookie session)[c]? = some session' := hget
  rw [Std.TreeMap.getElem?_insertIfNew] at hget'
  split at hget'
  · rename_i hc
    rw [← Std.LawfulEqCmp.eq_of_compare hc.1, ← Option.some.inj hget']
    exact hnew
  · exact h.stored c session' hget'

/-- What a handler sets is accounted for from when its session is written back. -/
theorem Accounted.setValues {session : HttpSession} {sets : List (String × String)}
    (h : Accounted sys s (sys.cookieOf k) session) :
    Accounted sys { s with completed := s.completed ++ [(k, sets)] } (sys.cookieOf k)
      (session.setValues sets) := by
  intro key value hget
  rw [HttpSession.getValue_setValues, Option.or_eq_some_iff] at hget
  rcases hget with hold | ⟨-, hset⟩
  · exact (h key value hold).mono fun e he => List.mem_append_left _ he
  · obtain ⟨p, hp, rfl⟩ := Option.map_eq_some_iff.mp hset
    have hmatch := List.find?_some hp
    exact ⟨(k, sets), List.mem_append_right _ List.mem_cons_self, rfl, p,
      List.mem_of_find?_eq_some hp, of_decide_eq_true hmatch, rfl⟩

theorem sid_sessionRequests (sys : System) (k : Nat) :
    (sys.sessionRequests k).sid = sys.sids k := by
  rw [System.sessionRequests]
  split
  · rfl
  · rfl

theorem Inv.advance (h : Inv sys s) (k : Nat) : Inv sys (s.advance sys.sessionRequests k) := by
  have hk := h.works k
  have hsame : ∀ e ∈ s.completed, e ∈ s.completed := fun _ he => he
  rw [HttpSessionManager.advance]
  rcases hphase : s.phase k with - | ⟨c, session⟩ | ⟨c, session⟩ | ⟨c, session, sets⟩ | -
  · dsimp only
    rcases hcookie : (sys.sessionRequests k).cookie with - | c
    · have hsid : (sys.sessionRequests k).sid = sys.cookieOf k := by
        rw [System.cookieOf, hcookie, sid_sessionRequests]
        rfl
      exact h.move rfl hsame (h.create (accounted_new _)) h.completed ⟨hsid, accounted_new _⟩
    · have hc : c = sys.cookieOf k := by
        rw [System.cookieOf, hcookie]
        rfl
      dsimp only
      rcases hfind : s.findSessionByCookie c with - | session
      · exact h.move rfl hsame h.stored h.completed ⟨hc, accounted_new _⟩
      · exact h.move rfl hsame h.stored h.completed ⟨hc, h.stored c session hfind⟩
  · rw [hphase] at hk
    exact h.move rfl hsame (h.insert hk.2) h.completed hk
  · rw [hphase] at hk
    dsimp only
    rcases hhandler : (sys.sessionRequests k).handler with - | handler
    · exact h.move rfl hsame h.stored h.completed trivial
    · exact h.move rfl hsame h.stored h.completed ⟨hk.1, hk.2, handler, hhandler, rfl⟩
  · rw [hphase] at hk
    obtain ⟨rfl, haccounted, handler, hhandler, rfl⟩ := hk
    have hsub : ∀ e ∈ s.completed, e ∈ s.completed ++ [(k, handler session)] :=
      fun e he => List.mem_append_left _ he
    have hwritten : Inv sys { s with completed := s.completed ++ [(k, handler session)] } := by
      refine ⟨fun c session' hget => (h.stored c session' hget).mono hsub,
        fun j => (h.works j).mono hsub, ?_⟩
      intro e he
      rcases List.mem_append.mp he with he | he
      · exact h.completed e he
      · rw [List.mem_singleton.mp he]
        exact ⟨handler, hhandler, session, rfl⟩
    exact hwritten.move rfl (fun _ he => he) (hwritten.insert haccounted.setValues)
      hwritten.completed trivial
  · exact h

theorem inv_run (sys : System) (schedule : List Nat) : Inv sys (sys.run schedule) := by
  induction schedule using List.reverseRecOn with
  | nil =>
    refine ⟨fun c session hget => ?_, fun _ => trivial, nofun⟩
    have hget' : (∅ : Std.TreeMap String HttpSession)[c]? = some session := hget
    rw [Std.TreeMap.getElem?_emptyc] at hget'
    cases hget'
  | append_singleton schedule k ih =>
    rw [System.run, List.foldl_append, List.foldl_cons, List.foldl_nil, System.step]
    split
    · exact ih.advance k
    · exact ih

end

/-! ### Signing in -/

section

variable {useHttpAuth : Bool} {userpass : List (String × String)} {pages : Pages}
  {uri : String} {handler : HttpHandler} {r : HttpRequest} {session : HttpSession}

end

end Orbit.Http
