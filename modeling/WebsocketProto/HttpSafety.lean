import WebsocketProto.HttpScan

/-! When the header parser stays inside the received string. None of its loops looks for the end
of the string, so it reads on behind the terminating NUL whenever the text has no colon or no line
end left. -/
namespace WebsocketProto
open Outcome

/-- The first index that has no meaning. -/
def pastEnd (data : Bytes) : MemoryFault := .outside ((data.length + 1 : Nat) : Int)

theorem charAt_end (data : Bytes) : charAt data data.length = .ok 0 := if_pos rfl

theorem charAt_past (data : Bytes) : charAt data (data.length + 1) = .error (pastEnd data) := by
  simp [charAt, readAt, pastEnd]

theorem atLineEnd_end (data : Bytes) :
    Memory.atLineEnd (charAt data) data.length = .error (pastEnd data) := by
  simp [Memory.atLineEnd, charAt_end, charAt_past, show (0 : Byte) ≠ CR by decide]

theorem atLineEnd_runs (front : Bytes) {c : Byte} {s : Bytes} (runs : ¬ LineEnd (c :: s)) :
    Memory.atLineEnd (charAt (front ++ c :: s)) front.length = .ok false := by
  cases s with
  | nil =>
    have here := charAt_append front c []
    have next : charAt (front ++ [c]) (front.length + 1) = .ok 0 := by
      simpa using charAt_end (front ++ [c])
    simp [Memory.atLineEnd, here, next, show c ≠ CR from runs, show (0 : Byte) ≠ LF by decide]
  | cons d s =>
    have stands := stands_charAt front (c :: d :: s) []
    rw [List.append_nil] at stands
    exact atLineEnd_false stands runs

/-- A text has a first line, or a line ends nowhere in it. -/
theorem line_or_unended (rest : Bytes) :
    (∃ text tail, rest = text ++ tail ∧ Line text tail) ∨ ∀ s, s <:+ rest → ¬ LineEnd s := by
  induction rest with
  | nil =>
    refine Or.inr fun s suffix ends => ?_
    rw [List.suffix_nil.mp suffix] at ends
    exact ends
  | cons c s ih =>
    by_cases ends : LineEnd (c :: s)
    · exact Or.inl ⟨[], c :: s, rfl, .ends ends⟩
    rcases ih with ⟨text, tail, rfl, line⟩ | unended
    · exact Or.inl ⟨c :: text, tail, rfl, .more ends line⟩
    · refine Or.inr fun back suffix => ?_
      rcases List.suffix_cons_iff.mp suffix with rfl | behind
      · exact ends
      · exact unended back behind

section Unended
variable {rest : Bytes} (unended : ∀ s, s <:+ rest → ¬ LineEnd s) (front : Bytes)

include unended

/-- No scan for a line end stops in it. -/
theorem skipToLineEnd_past {fuel : Nat} (enough : rest.length < fuel) :
    Memory.skipToLineEnd (charAt (front ++ rest)) fuel front.length =
      .error (pastEnd (front ++ rest)) := by
  induction rest generalizing front fuel with
  | nil =>
    obtain ⟨more, rfl⟩ := Nat.exists_eq_add_of_lt enough
    have past := atLineEnd_end front
    simp [Memory.skipToLineEnd, past]
  | cons c s ih =>
    rw [List.length_cons] at enough
    obtain ⟨more, rfl⟩ : ∃ more, fuel = more + 1 := ⟨fuel - 1, by omega⟩
    have runs := unended (c :: s) List.suffix_rfl
    have later := ih (fun back suffix => unended back (suffix.trans (List.suffix_cons c s)))
      (front ++ [c]) (by omega : s.length < more)
    simp only [List.append_assoc, List.singleton_append, List.length_append,
      List.length_singleton] at later
    simp [Memory.skipToLineEnd, atLineEnd_runs front runs, later]

/-- The request line is scanned in the same way. -/
theorem readRequestLine_past (data : Bytes) {fuel : Nat} (n i : Nat)
    (header : List (Bytes × Bytes)) (enough : rest.length < fuel) :
    Memory.readRequestLine (charAt (front ++ rest)) data fuel front.length n i header =
      .error (pastEnd (front ++ rest)) := by
  induction rest generalizing front fuel n i header with
  | nil =>
    obtain ⟨more, rfl⟩ := Nat.exists_eq_add_of_lt enough
    have past := atLineEnd_end front
    simp [Memory.readRequestLine, past]
  | cons c s ih =>
    rw [List.length_cons] at enough
    obtain ⟨more, rfl⟩ : ∃ more, fuel = more + 1 := ⟨fuel - 1, by omega⟩
    have runs := unended (c :: s) List.suffix_rfl
    have later (n i : Nat) (header : List (Bytes × Bytes)) :=
      ih (fun back suffix => unended back (suffix.trans (List.suffix_cons c s)))
        (front ++ [c]) n i header (by omega : s.length < more)
    simp only [List.append_assoc, List.singleton_append, List.length_append,
      List.length_singleton] at later
    simp [Memory.readRequestLine, atLineEnd_runs front runs, charAt_append, later]

end Unended

theorem skipToColon_past (front rest : Bytes) (colonless : COLON ∉ rest) (fuel : Nat)
    (enough : rest.length + 1 < fuel) : Memory.skipToColon (charAt (front ++ rest)) fuel
      front.length = .error (pastEnd (front ++ rest)) := by
  induction rest generalizing front fuel with
  | nil =>
    obtain ⟨more, rfl⟩ : ∃ more, fuel = more + 2 := ⟨fuel - 2, by simp at enough; omega⟩
    simp [Memory.skipToColon, charAt_end, charAt_past, show (0 : Byte) ≠ COLON by decide]
  | cons c s ih =>
    simp only [List.mem_cons, not_or] at colonless
    rw [List.length_cons] at enough
    obtain ⟨more, rfl⟩ : ∃ more, fuel = more + 1 := ⟨fuel - 1, by omega⟩
    have later := ih (front ++ [c]) colonless.2 more (by omega)
    simp only [List.append_assoc, List.singleton_append, List.length_append,
      List.length_singleton] at later
    simp [Memory.skipToColon, charAt_append, Ne.symm colonless.1, later]

theorem atBlankLine_running (front : Bytes) {rest : Bytes} (running : ¬ BlankLine rest) :
    Memory.atBlankLine (charAt (front ++ rest)) front.length = .ok false := by
  unfold Memory.atBlankLine
  match rest with
  | [] => simp [charAt_end, show (0 : Byte) ≠ CR by decide]
  | [c] =>
    have next : charAt (front ++ [c]) (front.length + 1) = .ok 0 := by
      simpa using charAt_end (front ++ [c])
    rw [charAt_append, ok_bind, next]
    split <;> rfl
  | c :: d :: s =>
    have stands := stands_charAt front (c :: d :: s) []
    rw [List.append_nil] at stands
    obtain ⟨here, next, _⟩ := stands
    rw [here, ok_bind, next, ok_bind]
    split
    · rename_i cr
      simp [show d ≠ LF from fun lf => running ⟨cr, lf⟩]
    · rfl

/-- A scan that begins behind the terminating NUL. -/
theorem scans_past (data : Bytes) (fuel : Nat) :
    Memory.skipToColon (charAt data) (fuel + 1) (data.length + 1) = .error (pastEnd data) ∧
    Memory.skipToLineEnd (charAt data) (fuel + 1) (data.length + 1) = .error (pastEnd data) ∧
    Memory.atBlankLine (charAt data) (data.length + 1) = .error (pastEnd data) := by
  simp [Memory.skipToColon, Memory.skipToLineEnd, Memory.atLineEnd, Memory.atBlankLine, charAt_past]

theorem readHeaderLines_value_past {data name : Bytes} {fuel : Nat} {header : List (Bytes × Bytes)}
    (front tail : Bytes) (named : Named name) (whole : data = front ++ (name ++ COLON :: tail))
    (past : Memory.skipToLineEnd (charAt data) (data.length + 2) (front.length + name.length + 2) =
      .error (pastEnd data)) :
    Memory.readHeaderLines (charAt data) data (fuel + 1) front.length header =
      .error (pastEnd data) := by
  have room : name.length < data.length + 2 := by
    rw [whole]
    simp
    omega
  have stands := stands_charAt front (name ++ COLON :: tail) []
  rw [List.append_nil, ← whole] at stands
  have colon := skipToColon_name named.2 stands room
  have key : slice data front.length (front.length + name.length) = name := by
    rw [whole]
    exact slice_append front name _
  simp [Memory.readHeaderLines, colon, key, named.1, past]

/-- The loop over the header lines runs out of the string. -/
def HeadersPast (front rest : Bytes) : Prop := ∀ fuel header, rest.length < fuel →
  Memory.readHeaderLines (charAt (front ++ rest)) (front ++ rest) fuel front.length header =
    .error (pastEnd (front ++ rest))

theorem colonless_past (front rest : Bytes) (colonless : COLON ∉ rest) :
    HeadersPast front rest := by
  intro fuel header enough
  obtain ⟨more, rfl⟩ := Nat.exists_eq_add_of_lt enough
  have past := skipToColon_past front rest colonless ((front ++ rest).length + 2)
    (by rw [List.length_append]; omega)
  rw [Memory.readHeaderLines, past, error_bind]

section Values
variable {name value rest : Bytes} {c a b : Byte} (front : Bytes)

theorem valueless_past (named : Named name) : HeadersPast front (name ++ [COLON]) := by
  intro fuel header enough
  obtain ⟨more, rfl⟩ : ∃ more, fuel = more + 1 := ⟨fuel - 1, by omega⟩
  apply readHeaderLines_value_past front [] named rfl
  have place : front.length + name.length + 2 = (front ++ (name ++ [COLON])).length + 1 := by
    simp; omega
  rw [place]
  exact (scans_past _ _).2.1

theorem lineless_past (named : Named name) (unended : ∀ s, s <:+ value → ¬ LineEnd s) :
    HeadersPast front (name ++ COLON :: c :: value) := by
  intro fuel header enough
  obtain ⟨more, rfl⟩ : ∃ more, fuel = more + 1 := ⟨fuel - 1, by omega⟩
  apply readHeaderLines_value_past front (c :: value) named rfl
  have split : front ++ (name ++ COLON :: c :: value) =
      (front ++ (name ++ [COLON, c])) ++ value := by simp
  have place : (front ++ (name ++ [COLON, c])).length = front.length + name.length + 2 := by
    simp
    omega
  rw [split, ← place]
  exact skipToLineEnd_past unended _ (by simp; omega)

/-- A line that ends with the string, one byte behind its value. -/
theorem lastByte_past (named : Named name) (filled : value ≠ []) (line : Line value [a]) :
    HeadersPast front (name ++ COLON :: c :: (value ++ [a])) := by
  intro fuel header enough
  obtain ⟨more, rfl⟩ : ∃ more, fuel = more + 1 := ⟨fuel - 1, by omega⟩
  have stands := stands_charAt front (name ++ COLON :: c :: (value ++ [a])) []
  rw [List.append_nil] at stands
  have past := (scans_past (front ++ (name ++ COLON :: c :: (value ++ [a]))) 0).2.2
  have end_ : front.length + name.length + 2 + value.length + 2 =
      (front ++ (name ++ COLON :: c :: (value ++ [a]))).length + 1 := by
    simp
    omega
  rw [readHeaderLines_line named filled line front [a] rfl stands, end_, past, error_bind]

/-- Behind a whole line that is not the last one. -/
theorem nextLine_past (named : Named name) (filled : value ≠ [])
    (line : Line value (a :: b :: rest)) (running : ¬ BlankLine rest)
    (past : HeadersPast (front ++ (name ++ COLON :: c :: (value ++ [a, b]))) rest) :
    HeadersPast front (name ++ COLON :: c :: (value ++ a :: b :: rest)) := by
  intro fuel header enough
  obtain ⟨more, rfl⟩ : ∃ more, fuel = more + 1 := ⟨fuel - 1, by omega⟩
  have stands := stands_charAt front (name ++ COLON :: c :: (value ++ a :: b :: rest)) []
  rw [List.append_nil] at stands
  have next : (front ++ (name ++ COLON :: c :: (value ++ [a, b]))).length =
      front.length + name.length + 2 + value.length + 2 := by
    simp
    omega
  have whole : front ++ (name ++ COLON :: c :: (value ++ a :: b :: rest)) =
      (front ++ (name ++ COLON :: c :: (value ++ [a, b]))) ++ rest := by simp
  have unblank := atBlankLine_running (front ++ (name ++ COLON :: c :: (value ++ [a, b]))) running
  rw [readHeaderLines_line named filled line front (a :: b :: rest) rfl stands, whole, ← next,
    unblank, ok_bind, if_neg Bool.false_ne_true]
  simp only [List.length_append, List.length_cons] at enough
  exact past more _ (by omega)

end Values

/-- The loop over the header lines is read to an end, or it runs out of the string. -/
theorem headerLines_or_past (front rest : Bytes) :
    (∃ lines result, HeaderLines rest lines result) ∨ HeadersPast front rest := by
  induction size : rest.length using Nat.strong_induction_on generalizing front rest with
  | _ n ih =>
  by_cases colon : COLON ∈ rest
  · obtain ⟨name, tail, rfl, colonless⟩ := List.eq_append_cons_of_mem colon
    by_cases nameless : name = []
    · subst nameless
      exact Or.inl ⟨[], false, .noName⟩
    have named : Named name := ⟨nameless, colonless⟩
    match tail with
    | [] => exact Or.inr (valueless_past front named)
    | c :: s =>
      rcases line_or_unended s with ⟨value, tail, rfl, line⟩ | unended
      · by_cases empty : value = []
        · subst empty
          exact Or.inl ⟨[], false, .noValue named line.ends_tail⟩
        match tail with
        | [] => exact line.ends_tail.elim
        | [a] => exact Or.inr (lastByte_past front named empty line)
        | a :: b :: rest =>
          by_cases blank : BlankLine rest
          · exact Or.inl ⟨_, true, .last named empty line blank⟩
          have shorter : rest.length < n := by
            simp only [List.length_append, List.length_cons] at size
            omega
          rcases ih rest.length shorter (front ++ (name ++ COLON :: c :: (value ++ [a, b]))) rest rfl
            with ⟨lines, result, later⟩ | past
          · exact Or.inl ⟨_, result, .next named empty line blank later⟩
          · exact Or.inr (nextLine_past front named empty line blank past)
      · exact Or.inr (lineless_past front named unended)
  · exact Or.inr (colonless_past front rest colon)

/-- The text consists of a request line and header lines up to a blank line, or up to a line
without a name or without a value: no scan of the parser is without its end. -/
def Readable (data : Bytes) : Prop := ∃ line lines result, RequestText data line lines result

theorem Readable.decodes {data : Bytes} (readable : Readable data) (header : List (Bytes × Bytes)) :
    ∃ r, decodeHttpHeader header data = .ok r := by
  obtain ⟨line, lines, result, request⟩ := readable
  have stands := stands_charAt [] data []
  simp only [List.nil_append, List.append_nil, List.length_nil] at stands
  have done := decodeHttpHeader_request request stands [] header
  rw [List.append_nil, ← decodeHttpHeader_eq] at done
  exact ⟨_, done⟩

theorem readable_or_past (data : Bytes) : Readable data ∨
    ∀ header, decodeHttpHeader header data = .error (pastEnd data) := by
  rcases line_or_unended data with ⟨line, tail, rfl, ends⟩ | unended
  · have standing := stands_charAt [] (line ++ tail) []
    simp only [List.nil_append, List.append_nil, List.length_nil] at standing
    have first (header : List (Bytes × Bytes)) := readRequestLine_line ends [] [] tail
      (by simp; omega : line.length < (line ++ tail).length + 2) 0 header standing
    simp only [List.nil_append, List.length_nil, Nat.zero_add] at first
    match tail with
    | [] => exact ends.ends_tail.elim
    | [a] =>
      refine Or.inr fun header => ?_
      have place : line.length + 2 = (line ++ [a]).length + 1 := by simp
      have past := (scans_past (line ++ [a]) ((line ++ [a]).length + 1)).1
      rw [decodeHttpHeader_eq, Memory.decodeHttpHeader, first, ok_bind]
      simp only [Memory.readHeaderLines, place, past, error_bind]
    | a :: b :: rest =>
      rcases headerLines_or_past (line ++ [a, b]) rest with ⟨lines, result, reads⟩ | past
      · exact Or.inl ⟨line, lines, result, .mk ends reads⟩
      · refine Or.inr fun header => ?_
        have place : line.length + 2 = (line ++ [a, b]).length := by simp
        have whole : line ++ a :: b :: rest = line ++ [a, b] ++ rest := by simp
        rw [decodeHttpHeader_eq, Memory.decodeHttpHeader, first, ok_bind]
        simp only [place, whole]
        exact past _ _ (by simp; omega)
  · refine Or.inr fun header => ?_
    have run := readRequestLine_past unended [] data 0 0 header (by omega : _ < data.length + 2)
    rw [decodeHttpHeader_eq, Memory.decodeHttpHeader]
    simp only [List.nil_append, List.length_nil] at run
    rw [run, error_bind]

/-- The parser returns, with every read inside the string or on its NUL, exactly on readable
texts; on any other text it reads the byte behind the NUL. -/
theorem http_header_inside_iff (data : Bytes) (header : List (Bytes × Bytes)) :
    ((∃ r, decodeHttpHeader header data = .ok r) ↔ Readable data) ∧
    (¬ Readable data → decodeHttpHeader header data = .error (.outside (data.length + 1))) := by
  constructor
  · constructor
    · rintro ⟨r, done⟩
      refine (readable_or_past data).resolve_right fun past => ?_
      rw [past] at done
      contradiction
    · exact fun readable => readable.decodes header
  · intro unreadable
    have past := (readable_or_past data).resolve_left unreadable header
    simpa [pastEnd] using past

/-- A request line and nothing else: the search for a colon leaves the string. -/
theorem bare_request_outside :
    decodeHttpHeader [] (ascii "GET / HTTP/1.1\r\n\r\n") = .error (.outside 19) ∧
    ¬ ∀ data, data ≠ [] → ∃ r, decodeHttpHeader [] data = .ok r := by
  have outside : decodeHttpHeader [] (ascii "GET / HTTP/1.1\r\n\r\n") = .error (.outside 19) := by
    decide +kernel
  refine ⟨outside, fun inside => ?_⟩
  obtain ⟨r, done⟩ := inside (ascii "GET / HTTP/1.1\r\n\r\n") (by decide)
  rw [outside] at done
  contradiction

end WebsocketProto
