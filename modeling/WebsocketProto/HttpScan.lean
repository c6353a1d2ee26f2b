import WebsocketProto.Http

/-! The header parser over any memory, and the texts that it reads to an end. A text is described
by its lines as the parser takes them: a line ends at a CR or in front of an LF, and two bytes are
skipped there, whatever they are. -/
namespace WebsocketProto
open Outcome

/-- What a read of the byte at an index yields. -/
abbrev Memory := Nat → Except MemoryFault Byte

namespace Memory

def atLineEnd (read : Memory) (m : Nat) : Except MemoryFault Bool := do
  if (← read m) = CR then return true
  else return (← read (m + 1)) = LF

def readRequestLine (read : Memory) (data : Bytes) : Nat → Nat → Nat → Nat →
    List (Bytes × Bytes) → Except MemoryFault (Nat × List (Bytes × Bytes))
  | 0, _, _, _, _ => .error .outOfFuel
  | fuel + 1, m, n, i, header => do
    if ← read.atLineEnd m then return (m, header)
    else if (← read m) = SP then
      let header :=
        if i = 0 then emplace header (ascii "method") (slice data n m)
        else if i = 1 then emplace header (ascii "path") (slice data n m)
        else header
      readRequestLine read data fuel (m + 1) (m + 1) (i + 1) header
    else readRequestLine read data fuel (m + 1) n i header

def skipToColon (read : Memory) : Nat → Nat → Except MemoryFault Nat
  | 0, _ => .error .outOfFuel
  | fuel + 1, m => do
    if (← read m) = COLON then return m
    else skipToColon read fuel (m + 1)

def skipToLineEnd (read : Memory) : Nat → Nat → Except MemoryFault Nat
  | 0, _ => .error .outOfFuel
  | fuel + 1, m => do
    if ← read.atLineEnd m then return m
    else skipToLineEnd read fuel (m + 1)

def atBlankLine (read : Memory) (m : Nat) : Except MemoryFault Bool := do
  if (← read m) = CR then return (← read (m + 1)) = LF
  else return false

def readHeaderLines (read : Memory) (data : Bytes) : Nat → Nat → List (Bytes × Bytes) →
    Except MemoryFault (Bool × List (Bytes × Bytes))
  | 0, _, _ => .error .outOfFuel
  | fuel + 1, n, header => do
    let m ← skipToColon read (data.length + 2) n
    let key := slice data n m
    if key.isEmpty then return (false, header)
    else
      let n := m + 2
      let m ← skipToLineEnd read (data.length + 2) n
      let value := slice data n m
      if value.isEmpty then return (false, header)
      else
        let header := emplace header key value
        if ← read.atBlankLine (m + 2) then return (true, header)
        else readHeaderLines read data fuel (m + 2) header

/-- `decode_http_header` with every `*m` going through `read`. The slices lie between two
places that were read. -/
def decodeHttpHeader (read : Memory) (data : Bytes) (header : List (Bytes × Bytes)) :
    Except MemoryFault (Bool × List (Bytes × Bytes)) := do
  let (m, header) ← readRequestLine read data (data.length + 2) 0 0 0 header
  readHeaderLines read data (data.length + 2) (m + 2) header

end Memory

section Instance
variable (data : Bytes)

theorem atLineEnd_eq (m : Nat) : atLineEnd data m = Memory.atLineEnd (charAt data) m := rfl

theorem atBlankLine_eq (m : Nat) : atBlankLine data m = Memory.atBlankLine (charAt data) m := rfl

theorem readRequestLine_eq (fuel m n i : Nat) (header : List (Bytes × Bytes)) :
    readRequestLine data fuel m n i header =
      Memory.readRequestLine (charAt data) data fuel m n i header := by
  induction fuel generalizing m n i header with
  | zero => rfl
  | succ fuel ih => simp [readRequestLine, Memory.readRequestLine, atLineEnd_eq, ih]

theorem skipToColon_eq (fuel m : Nat) :
    skipToColon data fuel m = Memory.skipToColon (charAt data) fuel m := by
  induction fuel generalizing m with
  | zero => rfl
  | succ fuel ih => simp [skipToColon, Memory.skipToColon, ih]

theorem skipToLineEnd_eq (fuel m : Nat) :
    skipToLineEnd data fuel m = Memory.skipToLineEnd (charAt data) fuel m := by
  induction fuel generalizing m with
  | zero => rfl
  | succ fuel ih => simp [skipToLineEnd, Memory.skipToLineEnd, atLineEnd_eq, ih]

theorem readHeaderLines_eq (fuel n : Nat) (header : List (Bytes × Bytes)) :
    readHeaderLines data fuel n header =
      Memory.readHeaderLines (charAt data) data fuel n header := by
  induction fuel generalizing n header with
  | zero => rfl
  | succ fuel ih =>
    simp [readHeaderLines, Memory.readHeaderLines, skipToColon_eq, skipToLineEnd_eq,
      atBlankLine_eq, ih]

/-- The parser of the source reads the received string. -/
theorem decodeHttpHeader_eq (header : List (Bytes × Bytes)) :
    decodeHttpHeader header data = Memory.decodeHttpHeader (charAt data) data header := by
  simp [decodeHttpHeader, Memory.decodeHttpHeader, readRequestLine_eq, readHeaderLines_eq]

end Instance

/-- The bytes `s` stand at `p`. -/
def Stands (read : Memory) : Nat → Bytes → Prop
  | _, [] => True
  | p, c :: s => read p = .ok c ∧ Stands read (p + 1) s

section Standing
variable {read : Memory} {p : Nat}

theorem Stands.append {front back : Bytes} (stands : Stands read p (front ++ back)) :
    Stands read p front ∧ Stands read (p + front.length) back := by
  induction front generalizing p with
  | nil => exact ⟨trivial, stands⟩
  | cons c front ih =>
    obtain ⟨first, later⟩ := stands
    obtain ⟨here, behind⟩ := ih later
    rw [List.length_cons, Nat.add_comm front.length, ← Nat.add_assoc]
    exact ⟨⟨first, here⟩, behind⟩

/-- A memory that shows nothing from `limit` on. -/
def Memory.upTo (limit : Nat) (read : Memory) : Memory :=
  fun p => if p < limit then read p else .error (.outside p)

theorem Stands.upTo {s : Bytes} {limit : Nat} (stands : Stands read p s)
    (inside : p + s.length ≤ limit) : Stands (read.upTo limit) p s := by
  induction s generalizing p with
  | nil => trivial
  | cons c s ih =>
    rw [List.length_cons] at inside
    exact ⟨(if_pos (by omega)).trans stands.1, ih stands.2 (by omega)⟩

end Standing

theorem charAt_append (front : Bytes) (c : Byte) (s : Bytes) :
    charAt (front ++ c :: s) front.length = .ok c := by
  simp [charAt, readAt]

theorem stands_charAt (front s back : Bytes) :
    Stands (charAt (front ++ (s ++ back))) front.length s := by
  induction s generalizing front with
  | nil => trivial
  | cons c s ih =>
    have later := ih (front ++ [c])
    simp only [List.append_assoc, List.cons_append, List.nil_append, List.length_append,
      List.length_singleton] at later
    exact ⟨charAt_append front c (s ++ back), later⟩

@[simp] theorem slice_append (front s back : Bytes) :
    slice (front ++ (s ++ back)) front.length (front.length + s.length) = s := by
  simp [slice]

/-- Where the parser takes a line to end. -/
def LineEnd : Bytes → Prop
  | [] => False
  | [c] => c = CR
  | c :: d :: _ => c = CR ∨ d = LF

instance : DecidablePred LineEnd
  | [] => inferInstanceAs (Decidable False)
  | [c] => inferInstanceAs (Decidable (c = CR))
  | c :: d :: _ => inferInstanceAs (Decidable (c = CR ∨ d = LF))

/-- `text` runs up to the first line end, and `tail` is the rest from there on. -/
inductive Line : Bytes → Bytes → Prop where
  | ends {tail} : LineEnd tail → Line [] tail
  | more {c text tail} : ¬ LineEnd (c :: (text ++ tail)) → Line text tail → Line (c :: text) tail

theorem Line.ends_tail {text tail : Bytes} (line : Line text tail) : LineEnd tail := by
  induction line with
  | ends ends => exact ends
  | more _ _ ih => exact ih

section Scanning
variable {read : Memory} {p : Nat}

theorem atLineEnd_true {tail : Bytes} (stands : Stands read p tail) (ends : LineEnd tail) :
    read.atLineEnd p = .ok true := by
  unfold Memory.atLineEnd
  match tail, stands, ends with
  | [c], ⟨here, _⟩, cr => simp [here, show c = CR from cr]
  | c :: d :: rest, ⟨here, next, _⟩, ends =>
    by_cases cr : c = CR
    · simp [here, cr]
    · simp [here, next, ends.resolve_left cr]

theorem atLineEnd_false {c d : Byte} {rest : Bytes} (stands : Stands read p (c :: d :: rest))
    (runs : ¬ LineEnd (c :: d :: rest)) : read.atLineEnd p = .ok false := by
  obtain ⟨here, next, _⟩ := stands
  obtain ⟨cr, lf⟩ := not_or.mp runs
  simp [Memory.atLineEnd, here, next, cr, lf]

/-- A byte of a line in front of its end. -/
theorem Line.runs {c : Byte} {text tail : Bytes} (line : Line text tail)
    (runs : ¬ LineEnd (c :: (text ++ tail))) (stands : Stands read p (c :: (text ++ tail))) :
    read.atLineEnd p = .ok false := by
  cases rest : text ++ tail with
  | nil =>
    have nothing : tail = [] := (List.append_eq_nil_iff.mp rest).2
    have ends := line.ends_tail
    rw [nothing] at ends
    exact ends.elim
  | cons d rest' =>
    rw [rest] at runs stands
    exact atLineEnd_false stands runs

theorem skipToLineEnd_line {text tail : Bytes} (line : Line text tail)
    (stands : Stands read p (text ++ tail)) {fuel : Nat} (enough : text.length < fuel) :
    read.skipToLineEnd fuel p = .ok (p + text.length) := by
  induction line generalizing p fuel with
  | ends ends =>
    obtain ⟨more, rfl⟩ := Nat.exists_eq_add_of_lt enough
    simp [Memory.skipToLineEnd, atLineEnd_true stands ends]
  | @more c text tail runs line ih =>
    rw [List.length_cons] at enough
    obtain ⟨more, rfl⟩ : ∃ more, fuel = more + 1 := ⟨fuel - 1, by omega⟩
    simp [Memory.skipToLineEnd, line.runs runs stands, ih stands.2 (by omega : text.length < more)]
    omega

theorem skipToColon_name {name tail : Bytes} (named : COLON ∉ name)
    (stands : Stands read p (name ++ COLON :: tail)) {fuel : Nat} (enough : name.length < fuel) :
    read.skipToColon fuel p = .ok (p + name.length) := by
  induction name generalizing p fuel with
  | nil =>
    obtain ⟨more, rfl⟩ := Nat.exists_eq_add_of_lt enough
    simp [Memory.skipToColon, stands.1]
  | cons c name ih =>
    rw [List.length_cons] at enough
    simp only [List.mem_cons, not_or] at named
    obtain ⟨other, named⟩ := named
    obtain ⟨more, rfl⟩ : ∃ more, fuel = more + 1 := ⟨fuel - 1, by omega⟩
    simp [Memory.skipToColon, stands.1, Ne.symm other,
      ih named stands.2 (by omega : name.length < more)]
    omega

end Scanning

/-- The header map behind a request line: `word` is what stands between the last of `i` spaces
and the rest of the line. -/
def requestEntries (header : List (Bytes × Bytes)) : Nat → Bytes → Bytes → List (Bytes × Bytes)
  | _, _, [] => header
  | i, word, c :: s =>
    if c = SP then
      requestEntries (if i = 0 then emplace header (ascii "method") word
        else if i = 1 then emplace header (ascii "path") word else header) (i + 1) [] s
    else requestEntries header i (word ++ [c]) s

theorem readRequestLine_line {read : Memory} {text tail : Bytes} (line : Line text tail)
    (front word back : Bytes) {fuel : Nat} (enough : text.length < fuel) (i : Nat)
    (header : List (Bytes × Bytes))
    (stands : Stands read (front.length + word.length) (text ++ tail)) :
    read.readRequestLine (front ++ (word ++ (text ++ back))) fuel (front.length + word.length)
      front.length i header =
        .ok (front.length + word.length + text.length, requestEntries header i word text) := by
  induction line generalizing front word fuel i header with
  | ends ends =>
    obtain ⟨more, rfl⟩ := Nat.exists_eq_add_of_lt enough
    simp [Memory.readRequestLine, atLineEnd_true stands ends, requestEntries]
  | @more c text tail runs line ih =>
    rw [List.length_cons] at enough
    obtain ⟨more, rfl⟩ : ∃ more, fuel = more + 1 := ⟨fuel - 1, by omega⟩
    by_cases space : c = SP
    · have later := ih (front ++ (word ++ [c])) [] (by omega : text.length < more) (i + 1)
        (if i = 0 then emplace header (ascii "method") word
          else if i = 1 then emplace header (ascii "path") word else header)
      simp only [List.length_append, List.length_singleton, List.append_assoc, List.cons_append,
        List.nil_append, List.length_nil, Nat.add_zero, ← Nat.add_assoc] at later
      simp [Memory.readRequestLine, line.runs runs stands, stands.1, space, requestEntries]
      rw [space] at later
      rw [later stands.2]
      simp
      omega
    · have later := ih front (word ++ [c]) (by omega : text.length < more) i header
      simp only [List.length_append, List.length_singleton, List.append_assoc, List.cons_append,
        List.nil_append, ← Nat.add_assoc] at later
      simp [Memory.readRequestLine, line.runs runs stands, stands.1, space, later stands.2,
        requestEntries]
      omega

def BlankLine : Bytes → Prop
  | c :: d :: _ => c = CR ∧ d = LF
  | _ => False

/-- A name in front of a colon. -/
def Named (name : Bytes) : Prop := name ≠ [] ∧ COLON ∉ name

/-- The header lines of a text, up to a blank line (`true`) or up to a line without a name or
without a value (`false`). One byte is skipped behind a colon. -/
inductive HeaderLines : Bytes → List (Bytes × Bytes) → Bool → Prop where
  | noName {rest} : HeaderLines (COLON :: rest) [] false
  | noValue {name c tail} : Named name → LineEnd tail →
      HeaderLines (name ++ COLON :: c :: tail) [] false
  | last {name c value a b rest} : Named name → value ≠ [] → Line value (a :: b :: rest) →
      BlankLine rest → HeaderLines (name ++ COLON :: c :: (value ++ a :: b :: rest))
        [(name, value)] true
  | next {name c value a b rest lines result} : Named name → value ≠ [] →
      Line value (a :: b :: rest) → ¬ BlankLine rest → HeaderLines rest lines result →
      HeaderLines (name ++ COLON :: c :: (value ++ a :: b :: rest)) ((name, value) :: lines) result

def emplaceAll (header lines : List (Bytes × Bytes)) : List (Bytes × Bytes) :=
  lines.foldl (fun header line => emplace header line.1 line.2) header

theorem HeaderLines.ne_nil {text : Bytes} {lines : List (Bytes × Bytes)} {result : Bool}
    (read : HeaderLines text lines result) : text ≠ [] := by
  cases read <;> simp

theorem atBlankLine_true {read : Memory} {p : Nat} {rest : Bytes} (stands : Stands read p rest)
    (blank : BlankLine rest) : read.atBlankLine p = .ok true := by
  match rest, stands, blank with
  | c :: d :: _, ⟨here, next, _⟩, ⟨cr, lf⟩ => simp [Memory.atBlankLine, here, next, cr, lf]

theorem atBlankLine_false {read : Memory} {p : Nat} {rest : Bytes} {lines : List (Bytes × Bytes)}
    {result : Bool} (stands : Stands read p rest) (more : ¬ BlankLine rest)
    (later : HeaderLines rest lines result) : read.atBlankLine p = .ok false := by
  unfold Memory.atBlankLine
  match rest, stands with
  | [], _ => exact absurd rfl later.ne_nil
  | [c], ⟨here, _⟩ =>
    -- a line of one byte is a colon
    have colon : c = COLON := by
      generalize text : [c] = s at later
      cases later with
      | noName => exact (List.cons.inj text).1
      | _ => simp [List.cons_eq_append_iff] at text
    simp [here, colon, show COLON ≠ CR by decide]
  | c :: d :: _, ⟨here, next, _⟩ =>
    by_cases cr : c = CR
    · simp [here, next, cr, show d ≠ LF from fun lf => more ⟨cr, lf⟩]
    · simp [here, cr]

section Lines
variable {read : Memory} {data : Bytes} {fuel : Nat} {header : List (Bytes × Bytes)}

/-- One header line; `behind` is what follows its value in the received string. -/
theorem readHeaderLines_line {name value tail : Bytes} {c : Byte} (named : Named name)
    (filled : value ≠ []) (line : Line value tail) (front behind : Bytes)
    (whole : data = front ++ (name ++ COLON :: c :: (value ++ behind)))
    (stands : Stands read front.length (name ++ COLON :: c :: (value ++ tail))) (fuel : Nat)
    (header : List (Bytes × Bytes)) : read.readHeaderLines data (fuel + 1) front.length header =
      read.atBlankLine (front.length + name.length + 2 + value.length + 2) >>= fun blank =>
        if blank then .ok (true, emplace header name value)
        else read.readHeaderLines data fuel (front.length + name.length + 2 + value.length + 2)
          (emplace header name value) := by
  obtain ⟨nonempty, colonless⟩ := named
  have size : data.length = front.length + name.length + 2 + value.length + behind.length := by
    rw [whole]
    simp
    omega
  have colon := skipToColon_name colonless stands (by omega : name.length < data.length + 2)
  obtain ⟨_, _, _, standing⟩ := stands.append
  have ending := skipToLineEnd_line line standing (by omega : value.length < data.length + 2)
  have key : slice data front.length (front.length + name.length) = name := by
    rw [whole]
    exact slice_append front name _
  have content : slice data (front.length + name.length + 1 + 1)
      (front.length + name.length + 1 + 1 + value.length) = value := by
    have start : front.length + name.length + 1 + 1 = (front ++ (name ++ [COLON, c])).length := by
      simp
      omega
    rw [start, whole]
    have cut := slice_append (front ++ (name ++ [COLON, c])) value behind
    simpa using cut
  simp [Memory.readHeaderLines, colon, key, nonempty, ending, content, filled]

theorem readHeaderLines_lines {text : Bytes} {lines : List (Bytes × Bytes)} {result : Bool}
    (reads : HeaderLines text lines result) (front trailing : Bytes)
    (whole : data = front ++ (text ++ trailing)) (stands : Stands read front.length text)
    (enough : text.length < fuel) : read.readHeaderLines data fuel front.length header =
      .ok (result, emplaceAll header lines) := by
  have size : data.length = front.length + text.length + trailing.length := by
    rw [whole]
    simp
    omega
  induction reads generalizing front fuel header with
  | noName =>
    obtain ⟨more, rfl⟩ := Nat.exists_eq_add_of_lt enough
    have nameless : COLON ∉ ([] : Bytes) := List.not_mem_nil
    have colon := skipToColon_name nameless stands (Nat.succ_pos (data.length + 1))
    simp [Memory.readHeaderLines, colon, slice, emplaceAll]
  | @noValue name c tail named ends =>
    obtain ⟨more, rfl⟩ := Nat.exists_eq_add_of_lt enough
    have room : name.length < data.length + 2 := by
      simp only [List.length_append] at size
      omega
    have colon := skipToColon_name named.2 stands room
    obtain ⟨_, _, _, standing⟩ := stands.append
    have ending := skipToLineEnd_line (.ends ends) standing (Nat.succ_pos (data.length + 1))
    have key : slice data front.length (front.length + name.length) = name := by
      rw [whole, List.append_assoc]
      exact slice_append front name _
    have nothing (n : Nat) : slice data n n = [] := by simp [slice]
    simp [Memory.readHeaderLines, colon, key, named.1, ending, nothing, emplaceAll]
  | @last name c value a b rest named filled line blank =>
    obtain ⟨more, rfl⟩ : ∃ more, fuel = more + 1 := ⟨fuel - 1, by omega⟩
    have split : data = front ++ (name ++ COLON :: c :: (value ++ a :: b :: (rest ++ trailing))) := by
      simpa using whole
    obtain ⟨_, _, _, standing⟩ := stands.append
    obtain ⟨_, _, _, behind⟩ := standing.append
    have stop : read.atBlankLine (front.length + name.length + 2 + value.length + 2) = .ok true :=
      atBlankLine_true behind blank
    rw [readHeaderLines_line named filled line front (a :: b :: (rest ++ trailing)) split stands, stop]
    rfl
  | @next name c value a b rest lines result named filled line running later ih =>
    obtain ⟨more, rfl⟩ : ∃ more, fuel = more + 1 := ⟨fuel - 1, by omega⟩
    have split : data = front ++ (name ++ COLON :: c :: (value ++ a :: b :: (rest ++ trailing))) := by
      simpa using whole
    obtain ⟨_, _, _, standing⟩ := stands.append
    obtain ⟨_, _, _, behind⟩ := standing.append
    have go : read.atBlankLine (front.length + name.length + 2 + value.length + 2) = .ok false :=
      atBlankLine_false behind running later
    have place : (front ++ (name ++ COLON :: c :: (value ++ [a, b]))).length =
        front.length + name.length + 2 + value.length + 2 := by
      simp
      omega
    simp only [List.length_append, List.length_cons] at enough size
    have rest_read : read.readHeaderLines data more _ (emplace header name value) = _ :=
      ih (front ++ (name ++ COLON :: c :: (value ++ [a, b]))) (by simp [whole])
      (by rw [place]; exact behind) (by omega : rest.length < more)
      (by rw [place]; omega)
    rw [readHeaderLines_line named filled line front (a :: b :: (rest ++ trailing)) split stands, go,
      ok_bind, if_neg Bool.false_ne_true, ← place, rest_read]
    rfl

end Lines

/-- A request line and the header lines behind it. -/
inductive RequestText : Bytes → Bytes → List (Bytes × Bytes) → Bool → Prop where
  | mk {line a b rest lines result} : Line line (a :: b :: rest) → HeaderLines rest lines result →
      RequestText (line ++ a :: b :: rest) line lines result

/-- A request that stands in the memory is read to its end, whatever else is there. -/
theorem decodeHttpHeader_request {read : Memory} {text line : Bytes} {lines : List (Bytes × Bytes)}
    {result : Bool} (request : RequestText text line lines result) (stands : Stands read 0 text)
    (trailing : Bytes) (header : List (Bytes × Bytes)) :
    read.decodeHttpHeader (text ++ trailing) header =
      .ok (result, emplaceAll (requestEntries header 0 [] line) lines) := by
  cases request with
  | @mk line a b rest lines result ends reads =>
    have whole : line ++ a :: b :: rest ++ trailing =
        [] ++ ([] ++ (line ++ (a :: b :: rest ++ trailing))) := by simp
    have size : (line ++ a :: b :: rest ++ trailing).length =
        line.length + 2 + rest.length + trailing.length := by
      simp
      omega
    have first := readRequestLine_line ends [] [] (a :: b :: rest ++ trailing)
      (by omega : line.length < (line ++ a :: b :: rest ++ trailing).length + 2) 0 header
      (by simpa using stands)
    rw [← whole] at first
    obtain ⟨_, _, _, behind⟩ := stands.append
    have place : (line ++ [a, b]).length = line.length + 2 := by simp
    have later : read.readHeaderLines _ _ _ (requestEntries header 0 [] line) = _ :=
      readHeaderLines_lines reads (line ++ [a, b]) trailing (by simp : line ++ a :: b :: rest ++ trailing = _)
      (by simpa [place] using behind)
      (by omega : rest.length < (line ++ a :: b :: rest ++ trailing).length + 2)
    rw [place] at later
    simp only [List.length_nil, Nat.zero_add] at first
    rw [Memory.decodeHttpHeader, first, ok_bind]
    exact later

end WebsocketProto
