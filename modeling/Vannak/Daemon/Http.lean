import Vannak.Daemon.QueryWire
import Vannak.Foundation.Lines
import Vannak.Process.EpochMillis

/-!
# The HTTP endpoint

`handle_health_request` of `daemon.rs` reads a request line, header lines and the body that
the last `Content-Length` line announces; `send_query_to_peer` writes such a request and reads
the answer. A connection is the bytes that the other side sends and the way they end.
-/

namespace Vannak.Daemon

open Foundation

set_option autoImplicit false

/-! ## Streams -/

/-- The other side closed the connection, or reading fails from here on, after a timeout for one. -/
inductive StreamEnd where
  | closed
  | failed (error : String)
deriving DecidableEq, Repr

structure Stream where
  unread : Bytes
  ending : StreamEnd
deriving DecidableEq, Repr

namespace Stream

/-- The bytes as the text that is read. -/
def textOf (bytes : Bytes) : Except String String :=
  match utf8Decode bytes with
  | some text => .ok text
  | none => .error "stream did not contain valid UTF-8"

/-- `read_line`: the line with its line feed, empty at the end of a closed stream. A line that is no text is consumed
as well. -/
def readLine (stream : Stream) : Except String String × Stream :=
  let (line, unread) := through 10 stream.unread
  let rest := { stream with unread }
  match stream.ending, decide (10 ∈ line) with
  | .failed error, false => (.error error, rest)
  | _, _ => (textOf line, rest)

/-- `read_to_string` on an empty string. -/
def readToString (stream : Stream) : Except String String :=
  match stream.ending with
  | .failed error => .error error
  | .closed => textOf stream.unread

end Stream

/-! ## Requests -/

/-- The limit is a `usize`. -/
structure DaemonConfig where
  maxRequestBodyBytes : Nat
  maxRequestBodyBytes_lt : maxRequestBodyBytes < 2 ^ 64

/-- `strip_prefix`. -/
def stripStart (start text : List Char) : Option (List Char) :=
  if start.isPrefixOf text then some (text.drop start.length) else none

/-- `split_whitespace`. -/
def splitWhitespace (text : List Char) : List (List Char) := (text.splitOnP isWhitespace).filter (· ≠ [])

/-- `parse::<usize>`. -/
def parseUsize (text : List Char) : Option Nat := Process.parseUnsigned (2 ^ 64) text

/-- One round of the loop over the headers. -/
def contentLengthAfter (contentLength : Option Nat) (line : String) : Option Nat :=
  match stripStart "Content-Length:".toList line.toList with
  | some rest => parseUsize (trim rest)
  | none => contentLength

/-- The loop. Each round but the last takes a byte off the stream, so that the length of the stream bounds the
rounds. -/
def readHeaders : Nat → Stream → Option Nat → Option Nat × Stream
  | 0, stream, contentLength => (contentLength, stream)
  | fuel + 1, stream, contentLength =>
    match stream.readLine with
    | (.error _, stream) => (contentLength, stream)
    | (.ok line, stream) =>
      if line = "\r\n" ∨ line = "" then (contentLength, stream)
      else readHeaders fuel stream (contentLengthAfter contentLength line)

def payloadTooLarge : String × String :=
  ("413 Payload Too Large", "\x7b\"error\":\"request body too large\"\x7d")

def readRequestBody (stream : Stream) (contentLength : Option Nat) (config : DaemonConfig) :
    Except (String × String) String :=
  match contentLength with
  | none => .ok ""
  | some len =>
    if config.maxRequestBodyBytes < len then .error payloadTooLarge
    else if stream.unread.length < len then
      .error ("400 Bad Request", "\x7b\"error\":\"failed to read request body\"\x7d")
    else .ok (PathBuf.toStringLossy ⟨stream.unread.take len⟩)

/-- The handler that a request is for. -/
inductive Route where
  | ingestMetadata
  | ingest
  | query
  | health
  | notFound
deriving DecidableEq, Repr

def routeOf (method path : List Char) : Route :=
  if method = "POST".toList ∧ path = "/ingest/metadata".toList then .ingestMetadata
  else if method = "POST".toList ∧ path = "/ingest".toList then .ingest
  else if method = "POST".toList ∧ path = "/query".toList then .query
  else if method = "GET".toList ∧ (path = "/".toList ∨ path = "/health".toList) then .health
  else .notFound

inductive Request where
  | ingestMetadata (body : String)
  | ingest (body : String)
  | query (body : String)
  | unreadable (answer : String × String)
  | health
  | notFound
deriving DecidableEq, Repr

def Request.ofBody (make : String → Request) : Except (String × String) String → Request
  | .error answer => .unreadable answer
  | .ok body => make body

/-- The body is read for the three handlers that take one. -/
def Route.request (body : Except (String × String) String) : Route → Request
  | .ingestMetadata => .ofBody .ingestMetadata body
  | .ingest => .ofBody .ingest body
  | .query => .ofBody .query body
  | .health => .health
  | .notFound => .notFound

/-- The part of `handle_health_request` that reads; without a request line there is no answer. -/
def readRequest (config : DaemonConfig) (stream : Stream) : Option Request :=
  match stream.readLine with
  | (.error _, _) => none
  | (.ok requestLine, stream) =>
    let (contentLength, stream) := readHeaders (stream.unread.length + 1) stream none
    let words := splitWhitespace requestLine.toList
    let method := words[0]?.getD []
    let path := words[1]?.getD []
    some ((routeOf method path).request (readRequestBody stream contentLength config))

/-- `write_json_response`. -/
def writeJsonResponse (answer : String × String) : Bytes :=
  utf8Bytes ("HTTP/1.1 " ++ answer.1 ++ "\r\nContent-Type: application/json\r\nContent-Length: " ++
    toString answer.2.utf8ByteSize ++ "\r\nConnection: close\r\n\r\n" ++ answer.2)

/-- What the endpoint needs of the service it serves. -/
structure Handlers (σ : Type) where
  handleMetadataIngestRequest : σ → String → (String × String) × σ
  handleIngestRequest : σ → String → (String × String) × σ
  handleQueryRequest : σ → String → String × String
  buildHealthJson : σ → String

namespace Handlers

variable {σ : Type}

/-- The answer to a request, and the service after it. -/
def serve (handlers : Handlers σ) (service : σ) : Request → (String × String) × σ
  | .ingestMetadata body => handlers.handleMetadataIngestRequest service body
  | .ingest body => handlers.handleIngestRequest service body
  | .query body => (handlers.handleQueryRequest service body, service)
  | .unreadable answer => (answer, service)
  | .health => (("200 OK", handlers.buildHealthJson service), service)
  | .notFound => (("404 Not Found", "\x7b\"error\":\"not found\"\x7d"), service)

def handleHealthRequest (handlers : Handlers σ) (config : DaemonConfig) (service : σ) (stream : Stream) :
    Option Bytes × σ :=
  match readRequest config stream with
  | none => (none, service)
  | some request =>
    let (answer, service) := handlers.serve service request
    (some (writeJsonResponse answer), service)

end Handlers

/-! ## The asking side -/

/-- The request of `send_query_to_peer`. -/
def peerRequest (peer jsonBody : String) : Bytes :=
  utf8Bytes ("POST /query HTTP/1.1\r\nHost: " ++ peer ++ "\r\nContent-Type: application/json\r\nContent-Length: " ++
    toString jsonBody.utf8ByteSize ++ "\r\nConnection: close\r\n\r\n" ++ jsonBody)

/-- The loop of `send_query_to_peer` over the lines of the answer. -/
def readAnswerLines : Nat → Stream → String → Except String (String × Stream)
  | 0, stream, response => .ok (response, stream)
  | fuel + 1, stream, response =>
    match stream.readLine with
    | (.error error, _) => .error error
    | (.ok line, stream) =>
      if line = "" ∨ line = "\r\n" then .ok (response, stream)
      else readAnswerLines fuel stream (response ++ line)

/-- The body of the answer, if there is one. -/
def readAnswer (stream : Stream) : Except String (Option String) := do
  let (response, stream) ← readAnswerLines (stream.unread.length + 1) stream ""
  if response = "" then return none
  return some (← stream.readToString)

/-- `send_query_to_peer`: `connect` is the connection to the peer as far as it can be made, answering what is sent.
The outer `none` is a panic of the parser. -/
def sendQueryToPeer (connect : String → Except String (Bytes → Stream)) (peer jsonBody : String) :
    Option (Except String (Option (List Process.ProcessInstanceSnapshot))) :=
  match connect peer with
  | .error error => some (.error error)
  | .ok exchange =>
    match readAnswer (exchange (peerRequest peer jsonBody)) with
    | .error error => some (.error error)
    | .ok none => some (.ok none)
    | .ok (some body) => (parseQueryResultJson body).map .ok

/-! ## Lines -/

namespace Stream

theorem textOf_utf8Bytes (text : String) : textOf (utf8Bytes text) = .ok text := by
  rw [textOf, utf8Decode_utf8Bytes]

theorem readLine_line {line : String} (h : '\n' ∉ line.toList) (rest : Bytes) (ending : StreamEnd) :
    (Stream.mk (utf8Bytes (line ++ "\n") ++ rest) ending).readLine = (.ok (line ++ "\n"), ⟨rest, ending⟩) := by
  have hFeed : 10 ∈ utf8Bytes (line ++ "\n") := by
    rw [utf8Bytes_append]
    exact List.mem_append_right _ (List.mem_singleton.mpr rfl)
  rw [readLine, through_utf8Bytes h]
  simp only [decide_eq_true hFeed, textOf_utf8Bytes]

end Stream

/-- Header lines and the empty line after them. -/
def headerBlock : List String → String
  | [] => "\r\n"
  | line :: lines => line ++ "\r\n" ++ headerBlock lines

section Headers

variable {line : String} {lines : List String}

theorem not_mem_carriage (h : '\n' ∉ line.toList) : '\n' ∉ (line ++ "\r").toList := by
  simpa using h

theorem readLine_header (h : '\n' ∉ line.toList) (rest : Bytes) (ending : StreamEnd) :
    (Stream.mk (utf8Bytes (line ++ "\r\n") ++ rest) ending).readLine =
      (.ok (line ++ "\r\n"), ⟨rest, ending⟩) := by
  have hLine : line ++ "\r\n" = line ++ "\r" ++ "\n" := by
    rw [String.append_assoc]
    rfl
  rw [hLine, Stream.readLine_line (not_mem_carriage h)]

theorem header_ne_end (h : line ≠ "") : ¬(line ++ "\r\n" = "\r\n" ∨ line ++ "\r\n" = "") := by
  rintro (hEnd | hEmpty)
  · have hLength := congrArg String.length hEnd
    rw [String.length_append] at hLength
    exact h (String.length_eq_zero_iff.mp (by omega))
  · have hLength := congrArg String.length hEmpty
    rw [String.length_append] at hLength
    exact absurd hLength (by simp)

theorem readHeaders_headerBlock (h : ∀ line ∈ lines, line ≠ "" ∧ '\n' ∉ line.toList) {fuel : Nat}
    (hFuel : lines.length < fuel) (contentLength : Option Nat) (rest : Bytes) (ending : StreamEnd) :
    readHeaders fuel ⟨utf8Bytes (headerBlock lines) ++ rest, ending⟩ contentLength =
      (lines.foldl (fun contentLength line => contentLengthAfter contentLength (line ++ "\r\n")) contentLength,
        ⟨rest, ending⟩) := by
  induction lines generalizing fuel contentLength with
  | nil =>
    cases fuel with
    | zero => cases hFuel
    | succ fuel =>
      have hLine := @readLine_header "" (by simp) rest ending
      rw [String.empty_append] at hLine
      rw [headerBlock, readHeaders, hLine]
      simp
  | cons line lines ih =>
    obtain ⟨⟨hNonempty, hFeed⟩, hLines⟩ := List.forall_mem_cons.mp h
    cases fuel with
    | zero => cases hFuel
    | succ fuel =>
      rw [headerBlock, utf8Bytes_append, List.append_assoc, readHeaders, readLine_header hFeed]
      simp only [if_neg (header_ne_end hNonempty)]
      exact ih hLines (Nat.lt_of_succ_lt_succ hFuel) _

theorem readAnswerLines_headerBlock (h : ∀ line ∈ lines, line ≠ "" ∧ '\n' ∉ line.toList) {fuel : Nat}
    (hFuel : lines.length < fuel) (response : String) (rest : Bytes) (ending : StreamEnd) :
    readAnswerLines fuel ⟨utf8Bytes (headerBlock lines) ++ rest, ending⟩ response =
      .ok (lines.foldl (fun response line => response ++ (line ++ "\r\n")) response, ⟨rest, ending⟩) := by
  induction lines generalizing fuel response with
  | nil =>
    cases fuel with
    | zero => cases hFuel
    | succ fuel =>
      have hLine := @readLine_header "" (by simp) rest ending
      rw [String.empty_append] at hLine
      rw [headerBlock, readAnswerLines, hLine]
      simp
  | cons line lines ih =>
    obtain ⟨⟨hNonempty, hFeed⟩, hLines⟩ := List.forall_mem_cons.mp h
    cases fuel with
    | zero => cases hFuel
    | succ fuel =>
      rw [headerBlock, utf8Bytes_append, List.append_assoc, readAnswerLines, readLine_header hFeed]
      simp only [if_neg (mt Or.symm (header_ne_end hNonempty))]
      exact ih hLines (Nat.lt_of_succ_lt_succ hFuel) _

theorem length_le_headerBlock (h : ∀ line ∈ lines, line ≠ "" ∧ '\n' ∉ line.toList) (rest : Bytes) :
    lines.length < (utf8Bytes (headerBlock lines) ++ rest).length + 1 := by
  induction lines with
  | nil => simp
  | cons line lines ih =>
    have hRest := ih (List.forall_mem_cons.mp h).2
    rw [headerBlock, utf8Bytes_append, utf8Bytes_append, List.length_cons]
    simp only [List.length_append] at hRest ⊢
    have hEnd : (utf8Bytes "\r\n").length = 2 := rfl
    omega

end Headers

/-! ## The declared length -/

theorem toList_toString (n : Nat) : (toString n).toList = Nat.toDigits 10 n := by
  rw [Nat.toString_eq_repr, Nat.toList_repr]

theorem isDigit_of_mem_toString {n : Nat} {char : Char} (h : char ∈ (toString n).toList) : char.isDigit = true := by
  rw [toList_toString] at h
  exact Nat.isDigit_of_mem_toDigits (by decide) (by decide) h

theorem toString_ne_nil (n : Nat) : (toString n).toList ≠ [] := by
  rw [toList_toString]
  exact Nat.toDigits_ne_nil

theorem parseUnsigned_toString {n limit : Nat} (h : n < limit) :
    Process.parseUnsigned limit (toString n).toList = some n := by
  have hValue : (toString n).toList.foldl (fun value digit => 10 * value + (digit.toNat - '0'.toNat)) 0 = n := by
    rw [toList_toString, ← Nat.ofDigitChars_eq_foldl, Nat.ofDigitChars_ten_toDigits]
  have hParsed := @Process.parseUnsigned_of_digits limit _ (toString_ne_nil n) (fun _ => isDigit_of_mem_toString)
    (by rwa [hValue])
  rwa [hValue] at hParsed

theorem isWhitespace_of_isDigit {char : Char} (h : char.isDigit = true) : isWhitespace char = false := by
  have hRange : 48 ≤ char.toNat ∧ char.toNat ≤ 57 := by
    simpa [Char.isDigit, UInt32.le_iff_toNat_le] using h
  simp only [isWhitespace, decide_eq_false_iff_not]
  omega

theorem trim_padded {before text after : List Char} (hBefore : ∀ char ∈ before, isWhitespace char = true)
    (hText : ∀ char ∈ text, isWhitespace char = false) (hNe : text ≠ [])
    (hAfter : ∀ char ∈ after, isWhitespace char = true) : trim (before ++ (text ++ after)) = text := by
  obtain ⟨first, rest, rfl⟩ := List.exists_cons_of_ne_nil hNe
  have hFirst := hText first List.mem_cons_self
  have hDrop : (first :: rest ++ after).dropWhile isWhitespace = first :: rest ++ after :=
    List.dropWhile_cons_of_neg (by simp [hFirst])
  have hReversed : ∀ char ∈ (first :: rest).reverse, isWhitespace char = false := fun char hChar =>
    hText char (List.mem_reverse.mp hChar)
  rw [trim, List.dropWhile_append_of_pos hBefore, hDrop, List.reverse_append,
    List.dropWhile_append_of_pos fun char hChar => hAfter char (List.mem_reverse.mp hChar)]
  cases hLast : (first :: rest).reverse with
  | nil => exact absurd hLast (by simp)
  | cons last others =>
    rw [hLast] at hReversed
    rw [List.dropWhile_cons_of_neg (by simp [hReversed last List.mem_cons_self]), ← hLast, List.reverse_reverse]

theorem contentLengthAfter_declared {n : Nat} (h : n < 2 ^ 64) (contentLength : Option Nat) :
    contentLengthAfter contentLength ("Content-Length: " ++ toString n ++ "\r\n") = some n := by
  have hStripped : stripStart "Content-Length:".toList ("Content-Length: " ++ toString n ++ "\r\n").toList =
      some ([' '] ++ ((toString n).toList ++ ['\r', '\n'])) := by
    simp [stripStart, List.isPrefixOf]
  have hDigits : ∀ char ∈ (toString n).toList, isWhitespace char = false := fun char hChar =>
    isWhitespace_of_isDigit (isDigit_of_mem_toString hChar)
  have hSpace : ∀ char ∈ [' '], isWhitespace char = true := by simp [isWhitespace]
  have hEnd : ∀ char ∈ ['\r', '\n'], isWhitespace char = true := by simp [isWhitespace]
  have hTrimmed := trim_padded hSpace hDigits (toString_ne_nil n) hEnd
  rw [contentLengthAfter, hStripped]
  simp only [hTrimmed, parseUsize, parseUnsigned_toString h]

/-! ## Requests and answers that are read as they were written -/

def peerHeaders (peer jsonBody : String) : List String :=
  ["Host: " ++ peer, "Content-Type: application/json", "Content-Length: " ++ toString jsonBody.utf8ByteSize,
    "Connection: close"]

theorem peerRequest_eq (peer jsonBody : String) :
    peerRequest peer jsonBody = utf8Bytes ("POST /query HTTP/1.1\r" ++ "\n") ++
      (utf8Bytes (headerBlock (peerHeaders peer jsonBody)) ++ utf8Bytes jsonBody) := by
  rw [peerRequest, ← utf8Bytes_append, ← utf8Bytes_append]
  refine congrArg utf8Bytes (String.toList_inj.mp ?_)
  simp [headerBlock, peerHeaders]

theorem not_mem_toString {char : Char} (h : char.isDigit = false) (n : Nat) : char ∉ (toString n).toList := by
  intro hMem
  rw [isDigit_of_mem_toString hMem] at h
  cases h

theorem peerHeaders_lines {peer : String} (h : '\n' ∉ peer.toList) (jsonBody : String) :
    ∀ line ∈ peerHeaders peer jsonBody, line ≠ "" ∧ '\n' ∉ line.toList := by
  have hDigits := @not_mem_toString '\n' (by decide) jsonBody.utf8ByteSize
  intro line hLine
  simp only [peerHeaders, List.mem_cons, List.not_mem_nil, or_false] at hLine
  rcases hLine with rfl | rfl | rfl | rfl
  · constructor
    · simp
    · simpa using h
  · decide
  · constructor
    · simp
    · simpa using hDigits
  · decide

/-- What the last header of that name declares. -/
theorem contentLength_peerHeaders (peer : String) {jsonBody : String} (h : jsonBody.utf8ByteSize < 2 ^ 64) :
    (peerHeaders peer jsonBody).foldl (fun contentLength line => contentLengthAfter contentLength (line ++ "\r\n"))
      none = some jsonBody.utf8ByteSize := by
  have hHost : contentLengthAfter none ("Host: " ++ peer ++ "\r\n") = none := by
    simp [contentLengthAfter, stripStart, List.isPrefixOf]
  have hType : contentLengthAfter none ("Content-Type: application/json" ++ "\r\n") = none := by
    decide
  have hConnection : ∀ len, contentLengthAfter len ("Connection: close" ++ "\r\n") = len := by
    intro len
    simp [contentLengthAfter, stripStart, List.isPrefixOf]
  simp only [peerHeaders, List.foldl_cons, List.foldl_nil, hHost, hType, hConnection, contentLengthAfter_declared h]

/-- What the server makes of the request of a peer. -/
def peerRequestRead (config : DaemonConfig) (jsonBody : String) : Request :=
  if jsonBody.utf8ByteSize ≤ config.maxRequestBodyBytes then .query jsonBody else .unreadable payloadTooLarge

theorem readRequest_peerRequest {peer jsonBody : String} (hPeer : '\n' ∉ peer.toList)
    (hUsize : jsonBody.utf8ByteSize < 2 ^ 64) (config : DaemonConfig) (ending : StreamEnd) :
    readRequest config ⟨peerRequest peer jsonBody, ending⟩ = some (peerRequestRead config jsonBody) := by
  have hLines := peerHeaders_lines hPeer jsonBody
  have hWords : splitWhitespace ("POST /query HTTP/1.1\r" ++ "\n").toList =
      ["POST".toList, "/query".toList, "HTTP/1.1".toList] := by
    decide
  have hRoute : routeOf "POST".toList "/query".toList = .query := by
    decide
  have hRead : Request.ofBody .query
      (readRequestBody ⟨utf8Bytes jsonBody, ending⟩ (some jsonBody.utf8ByteSize) config) =
        peerRequestRead config jsonBody := by
    rw [readRequestBody, peerRequestRead]
    by_cases hBody : jsonBody.utf8ByteSize ≤ config.maxRequestBodyBytes
    · rw [if_neg (Nat.not_lt.mpr hBody), if_neg (by simp), ← length_utf8Bytes, List.take_length,
        PathBuf.toStringLossy, utf8Decode_utf8Bytes, length_utf8Bytes, if_pos hBody]
      rfl
    · rw [if_pos (Nat.lt_of_not_le hBody), if_neg hBody]
      rfl
  rw [readRequest, peerRequest_eq, Stream.readLine_line (by decide)]
  dsimp only
  rw [readHeaders_headerBlock hLines (length_le_headerBlock hLines _), contentLength_peerHeaders peer hUsize, hWords]
  simp only [List.getElem?_cons_zero, List.getElem?_cons_succ, Option.getD_some, hRoute]
  exact congrArg some hRead

def answerHeaders (body : String) : List String :=
  ["Content-Type: application/json", "Content-Length: " ++ toString body.utf8ByteSize, "Connection: close"]

theorem writeJsonResponse_eq (answer : String × String) :
    writeJsonResponse answer =
      utf8Bytes (headerBlock (("HTTP/1.1 " ++ answer.1) :: answerHeaders answer.2)) ++ utf8Bytes answer.2 := by
  rw [writeJsonResponse, ← utf8Bytes_append]
  refine congrArg utf8Bytes (String.toList_inj.mp ?_)
  simp [headerBlock, answerHeaders]

theorem readAnswer_writeJsonResponse {answer : String × String} (hStatus : '\n' ∉ answer.1.toList) :
    readAnswer ⟨writeJsonResponse answer, .closed⟩ = .ok (some answer.2) := by
  have hDigits := @not_mem_toString '\n' (by decide) answer.2.utf8ByteSize
  have hLines : ∀ line ∈ ("HTTP/1.1 " ++ answer.1) :: answerHeaders answer.2, line ≠ "" ∧ '\n' ∉ line.toList := by
    intro line hLine
    simp only [answerHeaders, List.mem_cons, List.not_mem_nil, or_false] at hLine
    rcases hLine with rfl | rfl | rfl | rfl
    · constructor
      · simp
      · simpa using hStatus
    · decide
    · constructor
      · simp
      · simpa using hDigits
    · decide
  rw [readAnswer, writeJsonResponse_eq, readAnswerLines_headerBlock hLines (length_le_headerBlock hLines _)]
  have hNonempty : (("HTTP/1.1 " ++ answer.1) :: answerHeaders answer.2).foldl
      (fun response line => response ++ (line ++ "\r\n")) "" ≠ "" := by
    intro hEmpty
    have hLength := congrArg String.length hEmpty
    simp only [answerHeaders, List.foldl_cons, List.foldl_nil, String.length_append] at hLength
    exact absurd hLength (by simp)
  simp only [Bind.bind, Except.bind, if_neg hNonempty, Stream.readToString, Stream.textOf_utf8Bytes, pure, Except.pure]

/-- A query of a peer reaches the handler as it was sent unless it is too large, the service stays as it is, and the
peer reads the very answer. -/
theorem peer_query_served {σ : Type} {handlers : Handlers σ} {service : σ} {peer jsonBody : String}
    (hPeer : '\n' ∉ peer.toList) (hUsize : jsonBody.utf8ByteSize < 2 ^ 64)
    (hStatus : '\n' ∉ (handlers.handleQueryRequest service jsonBody).1.toList) (config : DaemonConfig)
    (ending : StreamEnd) :
    ∃ answer, answer = (if jsonBody.utf8ByteSize ≤ config.maxRequestBodyBytes then
        handlers.handleQueryRequest service jsonBody else payloadTooLarge) ∧
      handlers.handleHealthRequest config service ⟨peerRequest peer jsonBody, ending⟩ =
        (some (writeJsonResponse answer), service) ∧
      readAnswer ⟨writeJsonResponse answer, .closed⟩ = .ok (some answer.2) := by
  rw [Handlers.handleHealthRequest, readRequest_peerRequest hPeer hUsize, peerRequestRead]
  split
  · exact ⟨_, rfl, rfl, readAnswer_writeJsonResponse hStatus⟩
  · exact ⟨_, rfl, rfl, readAnswer_writeJsonResponse (by decide)⟩

/-- A service that knows no query. -/
def refusingHandlers : Handlers Unit where
  handleMetadataIngestRequest service _ := (("400 Bad Request", "\x7b\"error\":\"invalid metadata\"\x7d"), service)
  handleIngestRequest service _ := (("400 Bad Request", "\x7b\"error\":\"invalid event JSON\"\x7d"), service)
  handleQueryRequest _ _ := ("400 Bad Request", "\x7b\"error\":\"invalid query\"\x7d")
  buildHealthJson _ := "\x7b\x7d"

theorem sixteen_lt : 16 < 2 ^ 64 := by decide

def smallBodies : DaemonConfig := ⟨16, sixteen_lt⟩

theorem peer_query_served_refused :
    ∃ answer, answer = (if "\x7b\x7d".utf8ByteSize ≤ smallBodies.maxRequestBodyBytes then
        refusingHandlers.handleQueryRequest () "\x7b\x7d" else payloadTooLarge) ∧
      refusingHandlers.handleHealthRequest smallBodies () ⟨peerRequest "127.0.0.1:9090" "\x7b\x7d", .closed⟩ =
        (some (writeJsonResponse answer), ()) ∧
      readAnswer ⟨writeJsonResponse answer, .closed⟩ = .ok (some answer.2) :=
  peer_query_served (by decide) (by decide) (by decide) smallBodies .closed

/-! ## What reaches a handler -/

/-- A line feed stands at the end only. -/
def IsLine (line : String) : Prop := (through 10 (utf8Bytes line)).2 = []

theorem isLine_of_through {bytes : Bytes} {line : String} (h : utf8Bytes line = (through 10 bytes).1) :
    IsLine line := by
  rw [IsLine, h]
  by_cases hFeed : (10 : UInt8) ∈ bytes
  · obtain ⟨before, after, rfl, hBefore⟩ := List.eq_append_cons_of_mem hFeed
    rw [through_append hBefore, through_append hBefore []]
  · rw [through_of_not_mem hFeed, through_of_not_mem hFeed]

namespace Stream

theorem textOf_eq_ok {bytes : Bytes} {text : String} (h : textOf bytes = .ok text) : utf8Bytes text = bytes := by
  rw [textOf] at h
  cases hText : utf8Decode bytes with
  | none =>
    rw [hText] at h
    cases h
  | some decoded =>
    rw [hText] at h
    cases h
    exact utf8Bytes_of_utf8Decode hText

theorem readLine_cases (stream : Stream) :
    (stream.readLine = (textOf (through 10 stream.unread).1, { stream with unread := (through 10 stream.unread).2 })) ∨
      10 ∉ (through 10 stream.unread).1 ∧ ∃ error,
        stream.readLine = (.error error, { stream with unread := (through 10 stream.unread).2 }) := by
  rw [readLine]
  dsimp only
  split
  · rename_i error _ hFeed
    exact .inr ⟨of_decide_eq_false hFeed, error, rfl⟩
  · exact .inl rfl

/-- A line that is read is taken off the stream. -/
theorem readLine_ok {stream rest : Stream} {line : String} (h : stream.readLine = (.ok line, rest)) :
    stream.unread = utf8Bytes line ++ rest.unread ∧ IsLine line ∧ (line = "" → rest.unread = []) := by
  rcases stream.readLine_cases with hText | ⟨-, error, hError⟩
  · rw [hText] at h
    obtain ⟨hLine, rfl⟩ := Prod.mk.inj h
    have hBytes := textOf_eq_ok hLine
    refine ⟨?_, isLine_of_through hBytes, ?_⟩
    · rw [hBytes]
      exact (through_append_through _).symm
    · rintro rfl
      have hNil := through_fst_eq_nil_iff.mp hBytes.symm
      rw [hNil]
      rfl
  · rw [hError] at h
    cases (Prod.mk.inj h).1

/-- So is a line that is no text, or that is cut off. -/
theorem readLine_error {stream rest : Stream} {error : String} (h : stream.readLine = (.error error, rest)) :
    ∃ line, stream.unread = line ++ rest.unread ∧ (rest.unread = [] ∨ utf8Decode line = none) := by
  rcases stream.readLine_cases with hText | ⟨hFeed, other, hError⟩
  · rw [hText] at h
    obtain ⟨hLine, rfl⟩ := Prod.mk.inj h
    refine ⟨_, (through_append_through _).symm, .inr ?_⟩
    rw [textOf] at hLine
    cases hDecoded : utf8Decode (through 10 stream.unread).1 with
    | none => rfl
    | some text =>
      rw [hDecoded] at hLine
      cases hLine
  · rw [hError] at h
    obtain ⟨-, rfl⟩ := Prod.mk.inj h
    refine ⟨_, (through_append_through _).symm, .inl ?_⟩
    have hNone : 10 ∉ stream.unread := by
      intro hMem
      obtain ⟨before, after, hSplit, hBefore⟩ := List.eq_append_cons_of_mem hMem
      rw [hSplit, through_append hBefore] at hFeed
      exact hFeed (by simp)
    dsimp only
    rw [through_of_not_mem hNone]

end Stream

/-- The bytes after the last header: the empty line, or a line that cannot be read, unless the stream ends. -/
def EndsHeaders (separator rest : Bytes) : Prop :=
  separator = utf8Bytes "\r\n" ∨ rest = [] ∨ utf8Decode separator = none

/-- The loop reads headers to the end of the head, whatever the stream contains. -/
theorem readHeaders_reads {fuel : Nat} {stream : Stream} (hFuel : stream.unread.length < fuel)
    (contentLength : Option Nat) :
    ∃ (headers : List String) (separator : Bytes),
      stream.unread = headers.flatMap utf8Bytes ++ (separator ++ (readHeaders fuel stream contentLength).2.unread) ∧
      (readHeaders fuel stream contentLength).1 = headers.foldl contentLengthAfter contentLength ∧
      (∀ header ∈ headers, IsLine header ∧ header ≠ "\r\n") ∧
      EndsHeaders separator (readHeaders fuel stream contentLength).2.unread := by
  induction fuel generalizing stream contentLength with
  | zero => cases hFuel
  | succ fuel ih =>
    rw [readHeaders]
    cases hLine : stream.readLine with
    | mk result rest =>
      cases result with
      | error error =>
        obtain ⟨line, hSplit, hEnd⟩ := Stream.readLine_error hLine
        exact ⟨[], line, by simpa using hSplit, rfl, by simp, .inr hEnd⟩
      | ok line =>
        obtain ⟨hSplit, hIsLine, hEmpty⟩ := Stream.readLine_ok hLine
        dsimp only
        by_cases hEnd : line = "\r\n" ∨ line = ""
        · rw [if_pos hEnd]
          refine ⟨[], utf8Bytes line, by simpa using hSplit, rfl, by simp, ?_⟩
          rcases hEnd with rfl | hNone
          · exact .inl rfl
          · exact .inr (.inl (hEmpty hNone))
        · rw [if_neg hEnd]
          rw [not_or] at hEnd
          have hShorter : rest.unread.length < fuel := by
            have hLength := congrArg List.length hSplit
            have hPositive : 0 < (utf8Bytes line).length := by
              rw [length_utf8Bytes]
              exact Nat.pos_of_ne_zero fun hZero => hEnd.2 (String.utf8ByteSize_eq_zero_iff.mp hZero)
            rw [List.length_append] at hLength
            omega
          obtain ⟨headers, separator, hRest, hLength, hLines, hEnds⟩ :=
            ih hShorter (contentLengthAfter contentLength line)
          refine ⟨line :: headers, separator, ?_, hLength, ?_, hEnds⟩
          · rw [hSplit, List.flatMap_cons, List.append_assoc, ← hRest]
          · exact List.forall_mem_cons.mpr ⟨⟨hIsLine, hEnd.1⟩, hLines⟩

theorem chunkLength_pos {bytes : Bytes} (h : bytes ≠ []) : 0 < PathBuf.chunkLength bytes := by
  rw [PathBuf.chunkLength.eq_def]
  split
  · exact absurd rfl h
  · exact Nat.one_pos
  · repeat' split
    all_goals decide

/-- A replacement character takes three bytes. -/
theorem utf8ByteSize_lossyChunks (fuel : Nat) (bytes : Bytes) :
    (PathBuf.lossyChunks fuel bytes).utf8ByteSize ≤ 3 * bytes.length := by
  induction fuel generalizing bytes with
  | zero => exact Nat.zero_le _
  | succ fuel ih =>
    cases bytes with
    | nil => exact Nat.zero_le _
    | cons byte bytes =>
      have hPositive := chunkLength_pos (List.cons_ne_nil byte bytes)
      have hSplit := congrArg List.length (List.take_append_drop (PathBuf.chunkLength (byte :: bytes)) (byte :: bytes))
      have hChunk : ((utf8Decode ((byte :: bytes).take (PathBuf.chunkLength (byte :: bytes)))).getD
          "\uFFFD").utf8ByteSize ≤ 3 * ((byte :: bytes).take (PathBuf.chunkLength (byte :: bytes))).length := by
        cases hText : utf8Decode ((byte :: bytes).take (PathBuf.chunkLength (byte :: bytes))) with
        | none =>
          have hTaken : 1 ≤ ((byte :: bytes).take (PathBuf.chunkLength (byte :: bytes))).length := by
            rw [List.length_take, List.length_cons]
            omega
          have hMark : "\uFFFD".utf8ByteSize = 3 := by decide
          rw [Option.getD_none, hMark]
          omega
        | some text =>
          rw [Option.getD_some, ← length_utf8Bytes, utf8Bytes_of_utf8Decode hText]
          omega
      have hRest := ih ((byte :: bytes).drop (PathBuf.chunkLength (byte :: bytes)))
      rw [List.length_append] at hSplit
      rw [PathBuf.lossyChunks, String.utf8ByteSize_append]
      omega

theorem utf8ByteSize_toStringLossy (path : PathBuf) : path.toStringLossy.utf8ByteSize ≤ 3 * path.bytes.length := by
  rw [PathBuf.toStringLossy]
  cases hText : utf8Decode path.bytes with
  | none => exact utf8ByteSize_lossyChunks _ _
  | some text =>
    rw [Option.getD_some, ← length_utf8Bytes, utf8Bytes_of_utf8Decode hText]
    omega

/-- The path and the body of a request that a handler takes. -/
def Request.posted? : Request → Option (String × String)
  | .ingestMetadata body => some ("/ingest/metadata", body)
  | .ingest body => some ("/ingest", body)
  | .query body => some ("/query", body)
  | _ => none

theorem posted_path_ne_nil {request : Request} {path body : String} (h : request.posted? = some (path, body)) :
    path.toList ≠ [] := by
  cases request <;> cases h <;> decide

theorem posted_of_ofBody {make : String → Request} {read : Except (String × String) String}
    {posted : String × String} (h : (Request.ofBody make read).posted? = some posted) :
    ∃ body, read = .ok body ∧ (make body).posted? = some posted := by
  cases read with
  | error answer => cases h
  | ok body => exact ⟨body, rfl, h⟩

theorem posted_of_request {method path : List Char} {read : Except (String × String) String} {posted : String × String}
    (h : ((routeOf method path).request read).posted? = some posted) :
    method = "POST".toList ∧ path = posted.1.toList ∧ read = .ok posted.2 := by
  rw [routeOf] at h
  split at h
  · rename_i hRoute
    obtain ⟨body, hRead, hSame⟩ := posted_of_ofBody h
    cases hSame
    exact ⟨hRoute.1, hRoute.2, hRead⟩
  split at h
  · rename_i hRoute
    obtain ⟨body, hRead, hSame⟩ := posted_of_ofBody h
    cases hSame
    exact ⟨hRoute.1, hRoute.2, hRead⟩
  split at h
  · rename_i hRoute
    obtain ⟨body, hRead, hSame⟩ := posted_of_ofBody h
    cases hSame
    exact ⟨hRoute.1, hRoute.2, hRead⟩
  split at h
  · cases h
  · cases h

/-- The body that is read for a declared length. -/
def IsBodyOf (config : DaemonConfig) (rest : Bytes) (body : String) : Option Nat → Prop
  | none => body = ""
  | some len => len ≤ config.maxRequestBodyBytes ∧ len ≤ rest.length ∧ body = (PathBuf.mk (rest.take len)).toStringLossy

theorem readRequestBody_eq_ok {stream : Stream} {contentLength : Option Nat} {config : DaemonConfig} {body : String}
    (h : readRequestBody stream contentLength config = .ok body) :
    IsBodyOf config stream.unread body contentLength := by
  cases contentLength with
  | none => exact (Except.ok.inj h).symm
  | some len =>
    rw [readRequestBody] at h
    split at h
    · cases h
    · rename_i hLimit
      split at h
      · cases h
      · rename_i hRest
        exact ⟨Nat.le_of_not_lt hLimit, Nat.le_of_not_lt hRest, (Except.ok.inj h).symm⟩

theorem IsBodyOf.utf8ByteSize_le {config : DaemonConfig} {rest : Bytes} {body : String} {contentLength : Option Nat}
    (h : IsBodyOf config rest body contentLength) : body.utf8ByteSize ≤ 3 * config.maxRequestBodyBytes := by
  cases contentLength with
  | none =>
    obtain rfl : body = "" := h
    exact Nat.zero_le _
  | some len =>
    obtain ⟨hLimit, -, rfl⟩ := h
    have hSize := utf8ByteSize_toStringLossy ⟨rest.take len⟩
    rw [List.length_take] at hSize
    omega

theorem eq_some_of_getD {word : Option (List Char)} {text : List Char} (h : word.getD [] = text) (hNe : text ≠ []) :
    word = some text := by
  cases word with
  | none => exact absurd h.symm hNe
  | some word => exact congrArg some h

end Vannak.Daemon
