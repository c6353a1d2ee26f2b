import WebsocketProto.Handshakes
import WebsocketProto.HttpMessage

/-! Which requests the server accepts, against the opening handshakes of RFC 6455: it compares the
spelling of three headers and looks neither at the method nor at the version. -/
namespace WebsocketProto
open Outcome HttpMessage

namespace HttpMessage.HeaderField

/-- A header as the parser finds it on its line. -/
def line (h : HeaderField) : Bytes × Bytes := (h.name, h.raw)

theorem text_eq (h : HeaderField) : h.text = lineText h.line := rfl

theorem written (h : HeaderField) (filled : h.raw ≠ []) : Written h.line where
  named := ⟨h.token.1, h.token.uncolon⟩
  name := by
    have apart := fun c member => (h.token.2 c member).visible.apart
    exact ⟨fun cr => (apart CR cr).1 rfl, fun lf => (apart LF lf).2.1 rfl⟩
  filled := filled
  rest := ⟨fun cr => (h.raw_unbroken CR cr).1 rfl, fun lf => (h.raw_unbroken LF lf).2 rfl⟩

end HttpMessage.HeaderField

/-- The value that the parser takes from the first header of exactly this name: everything from
the second byte behind the colon. -/
def firstValue (headers : List HeaderField) (name : Bytes) : Option Bytes :=
  (headers.map fun h => (h.name, h.raw.tail)).lookup name

/-- What a request is accepted for. -/
structure ByTheLetter (r : Request) : Prop where
  long : ∀ h ∈ r.headers, 2 ≤ h.raw.length
  upgrade : firstValue r.headers (ascii "Upgrade") = some (ascii "websocket")
  connection : firstValue r.headers (ascii "Connection") = some (ascii "Upgrade")
  key : (firstValue r.headers (ascii "Sec-WebSocket-Key")).isSome

namespace HttpMessage.Request

def requestLine (r : Request) : Bytes := WebsocketProto.requestLine r.method r.target (ascii "HTTP/1.1")

theorem text_eq (r : Request) : r.text =
    r.requestLine ++ CR :: LF :: ((r.headers.map HeaderField.line).flatMap lineText ++ [CR, LF]) := by
  have lines : (r.headers.map HeaderField.line).flatMap lineText =
      r.headers.flatMap HeaderField.text := List.flatMap_map _ _ _
  have version : ascii " HTTP/1.1\r\n" = SP :: (ascii "HTTP/1.1" ++ [CR, LF]) := rfl
  have ends : ascii "\r\n" = [CR, LF] := rfl
  have space : ascii " " = [SP] := rfl
  simp [text, requestLine, WebsocketProto.requestLine, lines, version, ends, space]

theorem words (r : Request) :
    ∀ word ∈ [r.method, r.target, ascii "HTTP/1.1"], SP ∉ word ∧ Unbroken word := by
  have apart {word : Bytes} (visible : ∀ c ∈ word, Visible c) : SP ∉ word ∧ Unbroken word :=
    ⟨fun sp => (visible SP sp).apart.2.2.1 rfl, fun cr => (visible CR cr).apart.1 rfl,
      fun lf => (visible LF lf).apart.2.1 rfl⟩
  simp only [List.forall_mem_cons]
  exact ⟨apart fun c member => (r.token.2 c member).visible, apart r.visible.2, by decide,
    List.forall_mem_nil _⟩

theorem line (r : Request) (rest : Bytes) : Line r.requestLine (CR :: rest) := by
  have words := fun word member => (r.words word member).2
  simp only [List.forall_mem_cons, Unbroken] at words
  obtain ⟨⟨cr1, lf1⟩, ⟨cr2, lf2⟩, ⟨cr3, lf3⟩, _⟩ := words
  refine Unbroken.line ⟨?_, ?_⟩ rest <;>
    simp [requestLine, WebsocketProto.requestLine, *, show CR ≠ SP by decide, show LF ≠ SP by decide]

/-- The text up to the blank line is read when every header has a second byte behind its colon;
else it is refused at the first header that has none. -/
theorem decoded (r : Request) (some_ : r.headers ≠ []) (filled : ∀ h ∈ r.headers, h.raw ≠ []) :
    (∀ h ∈ r.headers, 2 ≤ h.raw.length) ∧ decodeHttpHeader [] r.text = .ok (true, emplaceAll
        [(ascii "method", r.method), (ascii "path", r.target)]
        (r.headers.map fun h => (h.name, h.raw.tail))) ∨
    (¬ ∀ h ∈ r.headers, 2 ≤ h.raw.length) ∧
      ∃ header, decodeHttpHeader [] r.text = .ok (false, header) := by
  have written : ∀ h ∈ r.headers.map HeaderField.line, Written h := by
    intro h member
    obtain ⟨field, inside, rfl⟩ := List.mem_map.mp member
    exact field.written (filled field inside)
  have long : (∀ h ∈ r.headers.map HeaderField.line, 2 ≤ h.2.length) ↔
      ∀ h ∈ r.headers, 2 ≤ h.raw.length := List.forall_mem_map
  have stands := stands_charAt [] r.text []
  simp only [List.nil_append, List.append_nil, List.length_nil] at stands
  have reads {lines : List (Bytes × Bytes)} {result : Bool} (reads : HeaderLines
      ((r.headers.map HeaderField.line).flatMap lineText ++ [CR, LF]) lines result) :
      decodeHttpHeader [] r.text =
        .ok (result, emplaceAll (requestEntries [] 0 [] r.requestLine) lines) := by
    have request : RequestText r.text r.requestLine lines result := by
      rw [text_eq]
      exact .mk (r.line _) reads
    have done := decodeHttpHeader_request request stands [] []
    rwa [List.append_nil, ← decodeHttpHeader_eq] at done
  rcases lineTexts_lines (by simpa using some_) written [] with ⟨all, lines⟩ | ⟨short, lines, none_⟩
  · refine Or.inl ⟨long.mp all, ?_⟩
    have unspaced := fun word member => (r.words word member).1
    simp only [List.forall_mem_cons] at unspaced
    have first := requestEntries_line [] unspaced.1 unspaced.2.1 unspaced.2.2.1
    have decoded := reads lines
    rwa [requestLine, first, List.map_map] at decoded
  · exact Or.inr ⟨fun all => short (long.mpr all), _, reads none_⟩

end HttpMessage.Request

/-- A header map with the words of the request line has the first value of every other name. -/
theorem lookup_fields (method target : Bytes) (headers : List HeaderField) {name : Bytes}
    (other : name ≠ ascii "method" ∧ name ≠ ascii "path") :
    entries (emplaceAll [(ascii "method", method), (ascii "path", target)]
      (headers.map fun h => (h.name, h.raw.tail))) name = firstValue headers name := by
  have first : (name == ascii "method") = false := by simpa using other.1
  have second : (name == ascii "path") = false := by simpa using other.2
  simp [entries, firstValue, lookup_emplaceAll, List.lookup_cons, first, second]

theorem handshakeKey_isSome (find : Bytes → Option Bytes) : (handshakeKey find).isSome ↔
    find (ascii "Upgrade") = some (ascii "websocket") ∧
      find (ascii "Connection") = some (ascii "Upgrade") ∧
      (find (ascii "Sec-WebSocket-Key")).isSome := by
  unfold handshakeKey
  split <;> simp_all

theorem accepted_iff (proto : Protocol) (fd : Nat) (r : Request) (some_ : r.headers ≠ [])
    (filled : ∀ h ∈ r.headers, h.raw ≠ []) :
    (∃ judged, proto.judged (.new fd) r.text = .ok judged ∧ judged.state = .waitShake) ↔
      ByTheLetter r := by
  have waits : (WebsocketClient.new fd).isConnected = .none := rfl
  rcases r.decoded some_ filled with ⟨long, decoded⟩ | ⟨short, header, decoded⟩
  · have letter : ByTheLetter r ↔ (handshakeKey (firstValue r.headers)).isSome := by
      rw [handshakeKey_isSome]
      exact ⟨fun ⟨_, upgrade, connection, key⟩ => ⟨upgrade, connection, key⟩,
        fun ⟨upgrade, connection, key⟩ => ⟨long, upgrade, connection, key⟩⟩
    have same : handshakeKey (entries (emplaceAll [(ascii "method", r.method), (ascii "path", r.target)]
        (r.headers.map fun h => (h.name, h.raw.tail)))) = handshakeKey (firstValue r.headers) := by
      simp only [handshakeKey]
      rw [lookup_fields _ _ _ (by decide), lookup_fields _ _ _ (by decide),
        lookup_fields _ _ _ (by decide)]
    rw [proto.judged_decoded waits decoded, letter, if_pos rfl, same]
    cases handshakeKey (firstValue r.headers) <;> simp
  · rw [proto.judged_decoded waits decoded]
    exact iff_of_false (by simp) fun letter => short letter.long

theorem firstValue_member {headers : List HeaderField} {name word : Bytes}
    (found : firstValue headers name = some word) :
    ∃ h ∈ headers, h.name = name ∧ h.raw.tail = word := by
  obtain ⟨before, after, split, _⟩ := List.lookup_eq_some_iff.mp found
  have member : (name, word) ∈ headers.map fun h => (h.name, h.raw.tail) := by simp [split]
  obtain ⟨h, inside, same⟩ := List.mem_map.mp member
  exact ⟨h, inside, Prod.mk.inj same⟩

/-- Where one byte of whitespace stands in front of every value, a value that the parser finds is
one that the request says. -/
theorem firstValue_says {r : Request} (one : ∀ h ∈ r.headers, h.front.length = 1) {name word : Bytes}
    (unblank : ∀ c ∈ word, ¬ Blank c) (found : firstValue r.headers name = some word) :
    r.Says name fun value => value = word := by
  obtain ⟨h, inside, rfl, tail⟩ := firstValue_member found
  exact ⟨h, inside, rfl, h.raw_tail (one h inside) unblank tail⟩

theorem ByTheLetter.opening {r : Request} (letter : ByTheLetter r)
    (one : ∀ h ∈ r.headers, h.front.length = 1) (method : r.method = ascii "GET")
    (version : r.Says (ascii "Sec-WebSocket-Version") fun value => value = ascii "13") :
    OpeningHandshake r where
  method := method
  upgrade := by
    obtain ⟨h, inside, name, value⟩ := firstValue_says one (by decide) letter.upgrade
    exact ⟨h, inside, name, congrArg _ value⟩
  connection := by
    obtain ⟨h, inside, name, value⟩ := firstValue_says one (by decide) letter.connection
    exact ⟨h, inside, name, ascii "Upgrade", by simp only [value]; decide, by decide⟩
  version := version
  key := by
    obtain ⟨key, found⟩ := Option.isSome_iff_exists.mp letter.key
    obtain ⟨h, inside, name, _⟩ := firstValue_member found
    exact ⟨h, inside, congrArg (List.map lower) name, trivial⟩

/-- For requests with a header and with something behind each colon. The last part needs that no
value is written with more or less than one byte of whitespace in front. -/
theorem request_accepted_iff (proto : Protocol) (fd : Nat) (r : Request) (some_ : r.headers ≠ [])
    (filled : ∀ h ∈ r.headers, h.raw ≠ []) :
    ((∃ judged, proto.judged (.new fd) r.text = .ok judged ∧ judged.state = .waitShake) ↔
      ByTheLetter r) ∧
    (ByTheLetter r → (∀ h ∈ r.headers, h.front.length = 1) → r.method = ascii "GET" →
      r.Says (ascii "Sec-WebSocket-Version") (fun value => value = ascii "13") →
      OpeningHandshake r) :=
  ⟨accepted_iff proto fd r some_ filled, fun letter one method version =>
    letter.opening one method version⟩

/-- `name ": " value`. -/
def HttpMessage.HeaderField.spaced (name value : Bytes) (token : Token name)
    (visible : ∀ c ∈ value, Visible c) : HeaderField where
  name := name
  front := [SP]
  value := value
  back := []
  token := token
  blank := by simp [Blank, SP]
  content c member := Or.inl (visible c member)
  trimmed := ⟨fun c first => visible c (List.mem_of_mem_head? first),
    fun c last => visible c (List.mem_of_getLast? last)⟩

def upgradeHeader : HeaderField :=
  .spaced (ascii "Upgrade") (ascii "websocket") (by decide) (by decide)

def connectionHeader : HeaderField :=
  .spaced (ascii "Connection") (ascii "Upgrade") (by decide) (by decide)

def keyHeader : HeaderField := .spaced (ascii "Sec-WebSocket-Key") (ascii "k") (by decide) (by decide)

/-- A `POST` without a version. -/
def postRequest : Request where
  method := ascii "POST"
  target := ascii "/"
  headers := [upgradeHeader, connectionHeader, keyHeader]
  token := by decide
  visible := by decide

theorem post_accepted : (∃ judged, Protocol.judged ⟨true, id⟩ (.new 7) postRequest.text = .ok judged ∧
    judged.state = .waitShake) ∧ ¬ OpeningHandshake postRequest := by
  have letter : ByTheLetter postRequest :=
    ⟨by decide, by decide, by decide, by decide⟩
  exact ⟨(request_accepted_iff ⟨true, id⟩ 7 postRequest (by decide) (by decide)).1.mpr letter, by decide⟩

/-- The `Connection` header of a browser. -/
def keepAliveRequest : Request where
  method := ascii "GET"
  target := ascii "/"
  headers := [upgradeHeader, ⟨ascii "Connection", [SP], ascii "keep-alive, Upgrade", [], by decide,
    by decide, by decide, by decide +kernel⟩, keyHeader,
    .spaced (ascii "Sec-WebSocket-Version") (ascii "13") (by decide) (by decide)]
  token := by decide
  visible := by decide

/-- A `POST` is accepted and a `GET` of a browser is not. -/
theorem accepted_not_opening : (¬ ∀ r : Request, (∃ judged,
      Protocol.judged ⟨true, id⟩ (.new 7) r.text = .ok judged ∧ judged.state = .waitShake) →
        OpeningHandshake r) ∧
    ¬ ∀ r : Request, OpeningHandshake r → ∃ judged,
      Protocol.judged ⟨true, id⟩ (.new 7) r.text = .ok judged ∧ judged.state = .waitShake := by
  constructor
  · intro sound
    have letter : ByTheLetter postRequest := ⟨by decide, by decide, by decide, by decide⟩
    have accepted := (accepted_iff ⟨true, id⟩ 7 postRequest (by decide) (by decide)).mpr letter
    exact absurd (sound postRequest accepted) (by decide)
  · intro complete
    have accepted := complete keepAliveRequest (by decide)
    have letter := (accepted_iff ⟨true, id⟩ 7 keepAliveRequest (by decide) (by decide)).mp accepted
    exact absurd letter.connection (by decide)

end WebsocketProto
