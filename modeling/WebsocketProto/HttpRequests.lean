import WebsocketProto.HttpScan

/-! Requests as they are printed, and the header map that the parser makes of them. -/
namespace WebsocketProto
open Outcome

theorem lookup_emplace (header : List (Bytes × Bytes)) (key value name : Bytes) :
    (emplace header key value).lookup name =
      (header.lookup name).or (if name = key then some value else none) := by
  unfold emplace
  by_cases known : (header.lookup key).isSome
  · obtain ⟨old, found⟩ := Option.isSome_iff_exists.mp known
    by_cases same : name = key
    · simp [same, found]
    · simp [known, same]
  · by_cases same : name = key
    · simp [known, same, List.lookup_append]
    · have other : (name == key) = false := by simpa using same
      simp [known, same, List.lookup_append, List.lookup_cons, other]

/-- The first entry of a name counts, and entries that were there before come first. -/
theorem lookup_emplaceAll (header lines : List (Bytes × Bytes)) (name : Bytes) :
    (emplaceAll header lines).lookup name = (header.lookup name).or (lines.lookup name) := by
  induction lines generalizing header with
  | nil => simp [emplaceAll]
  | cons line rest ih =>
    have later := ih (emplace header line.1 line.2)
    simp only [emplaceAll, List.foldl_cons] at later ⊢
    rw [later, lookup_emplace, Option.or_assoc, List.lookup_cons]
    by_cases same : name = line.1
    · simp [same]
    · have other : (name == line.1) = false := by simpa using same
      simp [same, other]

/-- The path that the client asked for. -/
def WebsocketClient.getPath (c : WebsocketClient) : Bytes :=
  (c.httpHeader.lookup (ascii "path")).getD []

/-- Text inside of a line. -/
def Unbroken (s : Bytes) : Prop := CR ∉ s ∧ LF ∉ s

instance : DecidablePred Unbroken := fun s => inferInstanceAs (Decidable (CR ∉ s ∧ LF ∉ s))

theorem Unbroken.line {text : Bytes} (unbroken : Unbroken text) (rest : Bytes) :
    Line text (CR :: rest) := by
  induction text with
  | nil => exact .ends (by cases rest <;> simp [LineEnd])
  | cons c text ih =>
    obtain ⟨cr, lf⟩ := unbroken
    simp only [List.mem_cons, not_or] at cr lf
    refine .more ?_ (ih ⟨cr.2, lf.2⟩)
    cases text with
    | nil => simp [LineEnd, Ne.symm cr.1, show CR ≠ LF by decide]
    | cons d text =>
      simp only [List.mem_cons, not_or] at lf
      simp [LineEnd, Ne.symm cr.1, Ne.symm lf.2.1]

/-- A name and what follows its colon, as they can stand on a line. -/
structure Written (h : Bytes × Bytes) : Prop where
  named : Named h.1
  name : Unbroken h.1
  filled : h.2 ≠ []
  rest : Unbroken h.2

def lineText (h : Bytes × Bytes) : Bytes := h.1 ++ COLON :: (h.2 ++ [CR, LF])

theorem Written.running {h : Bytes × Bytes} (written : Written h) (rest : Bytes) :
    ¬ BlankLine (lineText h ++ rest) := by
  obtain ⟨name, value⟩ := h
  cases name with
  | nil => exact absurd rfl written.named.1
  | cons c name =>
    have other : c ≠ CR := fun cr => written.name.1 (by simp [cr])
    intro blank
    cases name with
    | nil => exact other blank.1
    | cons d name => exact other blank.1

/-- One line in front of a blank line or of more lines. -/
theorem Written.lines {h : Bytes × Bytes} (written : Written h) (long : 2 ≤ h.2.length)
    {text : Bytes} {lines : List (Bytes × Bytes)} {result : Bool}
    (following : BlankLine text ∧ lines = [] ∧ result = true ∨
      ¬ BlankLine text ∧ HeaderLines text lines result) :
    HeaderLines (lineText h ++ text) ((h.1, h.2.tail) :: lines) result := by
  obtain ⟨name, value⟩ := h
  match value, long with
  | c :: d :: value, _ =>
    have unbroken : Unbroken (d :: value) :=
      ⟨fun cr => written.rest.1 (List.mem_cons_of_mem c cr),
        fun lf => written.rest.2 (List.mem_cons_of_mem c lf)⟩
    have line := unbroken.line (LF :: text)
    have split : lineText (name, c :: d :: value) ++ text =
        name ++ COLON :: c :: ((d :: value) ++ CR :: LF :: text) := by simp [lineText]
    rw [split]
    rcases following with ⟨blank, rfl, rfl⟩ | ⟨running, later⟩
    · exact .last written.named (List.cons_ne_nil d value) line blank
    · exact .next written.named (List.cons_ne_nil d value) line running later

/-- A line with a single byte behind its colon has no value. -/
theorem Written.noValue {h : Bytes × Bytes} (written : Written h) (short : ¬ 2 ≤ h.2.length)
    (text : Bytes) : HeaderLines (lineText h ++ text) [] false := by
  obtain ⟨name, value⟩ := h
  match value, short, written.filled with
  | [c], _, _ =>
    have split : lineText (name, [c]) ++ text = name ++ COLON :: c :: (CR :: LF :: text) := by
      simp [lineText]
    rw [split]
    exact .noValue written.named (Or.inl rfl)
  | c :: d :: value, short, _ => simp at short

/-- The values begin at the second byte behind the colon, and every line must have one. -/
theorem lineTexts_lines {headers : List (Bytes × Bytes)} (nonempty : headers ≠ [])
    (written : ∀ h ∈ headers, Written h) (rest : Bytes) :
    (∀ h ∈ headers, 2 ≤ h.2.length) ∧ HeaderLines (headers.flatMap lineText ++ CR :: LF :: rest)
        (headers.map fun h => (h.1, h.2.tail)) true ∨
    (¬ ∀ h ∈ headers, 2 ≤ h.2.length) ∧
      ∃ lines, HeaderLines (headers.flatMap lineText ++ CR :: LF :: rest) lines false := by
  induction headers with
  | nil => exact absurd rfl nonempty
  | cons h more ih =>
    obtain ⟨first, later⟩ := List.forall_mem_cons.mp written
    rw [List.flatMap_cons, List.append_assoc, List.forall_mem_cons]
    by_cases long : 2 ≤ h.2.length
    · cases more with
      | nil =>
        refine Or.inl ⟨⟨long, List.forall_mem_nil _⟩, first.lines long (Or.inl ⟨⟨rfl, rfl⟩, rfl, rfl⟩)⟩
      | cons g more =>
        have running := (later g List.mem_cons_self).running
          (more.flatMap lineText ++ CR :: LF :: rest)
        rw [← List.append_assoc, ← List.flatMap_cons] at running
        rcases ih (List.cons_ne_nil g more) later with ⟨all, reads⟩ | ⟨some_, lines, reads⟩
        · exact Or.inl ⟨⟨long, all⟩, first.lines long (Or.inr ⟨running, reads⟩)⟩
        · exact Or.inr ⟨fun every => some_ every.2, _, first.lines long (Or.inr ⟨running, reads⟩)⟩
    · exact Or.inr ⟨fun every => long every.1, [], first.noValue long _⟩

/-- A header whose name and value can be printed on a line. -/
structure Field (h : Bytes × Bytes) : Prop where
  named : Named h.1
  filled : h.2 ≠ []
  name : Unbroken h.1
  value : Unbroken h.2

/-- `name ": " value CRLF`. -/
def headerText (h : Bytes × Bytes) : Bytes := h.1 ++ COLON :: SP :: (h.2 ++ [CR, LF])

theorem headerTexts_lines {headers : List (Bytes × Bytes)} (nonempty : headers ≠ [])
    (fields : ∀ h ∈ headers, Field h) (rest : Bytes) :
    HeaderLines (headers.flatMap headerText ++ CR :: LF :: rest) headers true := by
  have written : ∀ h ∈ headers.map fun h => (h.1, SP :: h.2), Written h := by
    intro h member
    obtain ⟨g, inside, rfl⟩ := List.mem_map.mp member
    obtain ⟨named, filled, name, cr, lf⟩ := fields g inside
    exact ⟨named, name, List.cons_ne_nil SP g.2, by simp [Unbroken, cr, lf, show CR ≠ SP by decide,
      show LF ≠ SP by decide]⟩
  have long : ∀ h ∈ headers.map fun h => (h.1, SP :: h.2), 2 ≤ h.2.length := by
    intro h member
    obtain ⟨g, inside, rfl⟩ := List.mem_map.mp member
    have filled := List.length_pos_iff.mpr (fields g inside).filled
    simp only [List.length_cons]
    omega
  rcases lineTexts_lines (by simpa using nonempty) written rest with ⟨_, reads⟩ | ⟨short, _⟩
  · have text : (headers.map fun h => (h.1, SP :: h.2)).flatMap lineText =
        headers.flatMap headerText := List.flatMap_map _ _ _
    have entries : (headers.map fun h => (h.1, SP :: h.2)).map (fun h => (h.1, h.2.tail)) =
        headers := (List.map_map).trans (List.map_id headers)
    rwa [text, entries] at reads
  · exact absurd long short

/-- `method SP path SP version`. -/
def requestLine (method path version : Bytes) : Bytes := method ++ SP :: (path ++ SP :: version)

theorem requestEntries_word (header : List (Bytes × Bytes)) (i : Nat) (front : Bytes) {word : Bytes}
    (unspaced : SP ∉ word) (s : Bytes) :
    requestEntries header i front (word ++ s) = requestEntries header i (front ++ word) s := by
  induction word generalizing front with
  | nil => simp
  | cons c word ih =>
    simp only [List.mem_cons, not_or] at unspaced
    simp [requestEntries, Ne.symm unspaced.1, ih (front ++ [c]) unspaced.2]

theorem requestEntries_line (header : List (Bytes × Bytes)) {method path version : Bytes}
    (method_ : SP ∉ method) (path_ : SP ∉ path) (version_ : SP ∉ version) :
    requestEntries header 0 [] (requestLine method path version) =
      emplaceAll header [(ascii "method", method), (ascii "path", path)] := by
  have last := requestEntries_word (emplaceAll header [(ascii "method", method), (ascii "path", path)])
    2 [] version_ []
  rw [List.append_nil] at last
  rw [requestLine, requestEntries_word _ _ _ method_]
  simp only [requestEntries, if_true, requestEntries_word _ _ _ path_, Nat.zero_add,
    Nat.one_ne_zero, if_false, List.nil_append]
  exact last

def requestText (method path version : Bytes) (headers : List (Bytes × Bytes)) : Bytes :=
  requestLine method path version ++ CR :: LF :: (headers.flatMap headerText ++ [CR, LF])

theorem requestText_request {method path version : Bytes} {headers : List (Bytes × Bytes)}
    (words : ∀ word ∈ [method, path, version], Unbroken word) (nonempty : headers ≠ [])
    (fields : ∀ h ∈ headers, Field h) (trailing : Bytes) :
    RequestText (requestText method path version headers ++ trailing)
      (requestLine method path version) headers true := by
  have unbroken : Unbroken (requestLine method path version) := by
    simp only [List.forall_mem_cons, Unbroken] at words
    obtain ⟨⟨cr1, lf1⟩, ⟨cr2, lf2⟩, ⟨cr3, lf3⟩, _⟩ := words
    simp [Unbroken, requestLine, cr1, lf1, cr2, lf2, cr3, lf3, show CR ≠ SP by decide,
      show LF ≠ SP by decide]
  have lines := headerTexts_lines nonempty fields trailing
  have text := RequestText.mk (unbroken.line (LF :: (headers.flatMap headerText ++ CR :: LF :: trailing)))
    lines
  simpa [requestText] using text

/-- The parser reads a printed request, without a look at any byte behind it, and its header map
holds the words of the request line and the first value of every other name. -/
theorem printed_request_parses (method path version : Bytes) (headers : List (Bytes × Bytes))
    (trailing : Bytes) (words : ∀ word ∈ [method, path, version], SP ∉ word ∧ Unbroken word)
    (nonempty : headers ≠ []) (fields : ∀ h ∈ headers, Field h) :
    ∃ header, decodeHttpHeader [] (requestText method path version headers ++ trailing) =
        .ok (true, header) ∧
      Memory.decodeHttpHeader
        (Memory.upTo (requestText method path version headers).length
          (charAt (requestText method path version headers ++ trailing)))
        (requestText method path version headers ++ trailing) [] = .ok (true, header) ∧
      header.lookup (ascii "method") = some method ∧ header.lookup (ascii "path") = some path ∧
      (∀ c : WebsocketClient, c.httpHeader = header → c.getPath = path) ∧
      ∀ name, name ≠ ascii "method" → name ≠ ascii "path" →
        header.lookup name = headers.lookup name := by
  have unspaced := fun word member => (words word member).1
  simp only [List.forall_mem_cons] at unspaced
  have entries := requestEntries_line [] unspaced.1 unspaced.2.1 unspaced.2.2.1
  have request := requestText_request (fun word member => (words word member).2) nonempty fields []
  rw [List.append_nil] at request
  have stands := stands_charAt [] (requestText method path version headers) trailing
  simp only [List.nil_append, List.length_nil] at stands
  have full := decodeHttpHeader_request request stands trailing []
  have inside := stands.upTo (Nat.le_of_eq (Nat.zero_add _))
  have short := decodeHttpHeader_request request inside trailing []
  rw [entries] at full short
  have lookups (name : Bytes) : (emplaceAll (emplaceAll []
      [(ascii "method", method), (ascii "path", path)]) headers).lookup name =
        ([(ascii "method", method), (ascii "path", path)].lookup name).or (headers.lookup name) := by
    simp [lookup_emplaceAll]
  have asked : (emplaceAll (emplaceAll [] [(ascii "method", method), (ascii "path", path)])
      headers).lookup (ascii "path") = some path := by
    rw [lookups, List.lookup_cons, show (ascii "path" == ascii "method") = false by decide]
    simp
  refine ⟨_, (decodeHttpHeader_eq _ _).trans full, short, ?_, asked, ?_, ?_⟩
  · rw [lookups]
    simp
  · intro c same
    rw [WebsocketClient.getPath, same, asked]
    rfl
  · intro name method_ path_
    have first : (name == ascii "method") = false := by simpa using method_
    have second : (name == ascii "path") = false := by simpa using path_
    rw [lookups]
    simp [List.lookup_cons, first, second]

/-- A header named `path` and a second `Host` change nothing. -/
theorem chat_request_parses : ∃ header, decodeHttpHeader [] (requestText (ascii "GET") (ascii "/chat")
      (ascii "HTTP/1.1") [(ascii "Host", ascii "a:80"), (ascii "path", ascii "/"),
        (ascii "Host", ascii "b")] ++ ascii "next") = .ok (true, header) ∧
    header.lookup (ascii "path") = some (ascii "/chat") ∧
    header.lookup (ascii "Host") = some (ascii "a:80") := by
  obtain ⟨header, done, _, _, path, _, other⟩ := printed_request_parses (ascii "GET") (ascii "/chat")
    (ascii "HTTP/1.1") [(ascii "Host", ascii "a:80"), (ascii "path", ascii "/"),
      (ascii "Host", ascii "b")] (ascii "next") (by decide) (by decide)
    (by
      simp only [List.forall_mem_cons]
      exact ⟨⟨⟨by decide, by decide⟩, by decide, by decide, by decide⟩,
        ⟨⟨by decide, by decide⟩, by decide, by decide, by decide⟩,
        ⟨⟨by decide, by decide⟩, by decide, by decide, by decide⟩, List.forall_mem_nil _⟩)
  exact ⟨header, done, path, other (ascii "Host") (by decide) (by decide)⟩

end WebsocketProto
