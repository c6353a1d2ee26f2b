import WebsocketProto.Bytes

/-! HTTP/1.1 requests as an abstract format: the parts of a request and the bytes it stands for,
and what makes a request an opening handshake of RFC 6455. -/
namespace WebsocketProto.HttpMessage

/-- Optional whitespace. -/
def Blank (c : Byte) : Prop := c = 32 ∨ c = 9

/-- A printing character, or one outside of ASCII. -/
def Visible (c : Byte) : Prop := 32 < c ∧ c ≠ 127

def TokenChar (c : Byte) : Prop :=
  c ∈ ascii "!#$%&'*+-.^_`|~0123456789" ++
    ascii "ABCDEFGHIJKLMNOPQRSTUVWXYZ" ++ ascii "abcdefghijklmnopqrstuvwxyz"

instance : DecidablePred Blank := fun c => inferInstanceAs (Decidable (c = 32 ∨ c = 9))
instance : DecidablePred Visible := fun c => inferInstanceAs (Decidable (32 < c ∧ c ≠ 127))
instance : DecidablePred TokenChar := fun c => inferInstanceAs (Decidable (c ∈ _ ++ _ ++ _))

def Token (s : Bytes) : Prop := s ≠ [] ∧ ∀ c ∈ s, TokenChar c

instance : DecidablePred Token := fun s =>
  inferInstanceAs (Decidable (s ≠ [] ∧ ∀ c ∈ s, TokenChar c))

/-- A header line: a name, and a value between optional whitespace. -/
structure HeaderField where
  name : Bytes
  front : Bytes
  value : Bytes
  back : Bytes
  token : Token name
  blank : ∀ c ∈ front ++ back, Blank c
  content : ∀ c ∈ value, Visible c ∨ Blank c
  trimmed : (∀ c ∈ value.head?, Visible c) ∧ ∀ c ∈ value.getLast?, Visible c

/-- What stands between the colon and the end of the line. -/
def HeaderField.raw (h : HeaderField) : Bytes := h.front ++ (h.value ++ h.back)

def HeaderField.text (h : HeaderField) : Bytes := h.name ++ (ascii ":" ++ (h.raw ++ ascii "\r\n"))

structure Request where
  method : Bytes
  target : Bytes
  headers : List HeaderField
  token : Token method
  visible : target ≠ [] ∧ ∀ c ∈ target, Visible c

def Request.text (r : Request) : Bytes :=
  r.method ++ (ascii " " ++ (r.target ++ (ascii " HTTP/1.1\r\n" ++
    (r.headers.flatMap HeaderField.text ++ ascii "\r\n"))))

def lower (c : Byte) : Byte := if 65 ≤ c ∧ c ≤ 90 then c + 32 else c

/-- The same word but for the case of its letters. -/
def SameWord (s t : Bytes) : Prop := s.map lower = t.map lower

instance (s t : Bytes) : Decidable (SameWord s t) :=
  inferInstanceAs (Decidable (s.map lower = t.map lower))

def elements : Bytes → List Bytes
  | [] => [[]]
  | c :: s => if c = 44 then [] :: elements s else match elements s with
    | word :: rest => (c :: word) :: rest
    | [] => [[c]]

def trim (s : Bytes) : Bytes :=
  ((s.dropWhile fun c => Blank c).reverse.dropWhile fun c => Blank c).reverse

/-- Some header of the name, in any case, has a value with the property. -/
def Request.Says (r : Request) (name : Bytes) (property : Bytes → Prop) : Prop :=
  ∃ h ∈ r.headers, SameWord h.name name ∧ property h.value

instance (r : Request) (name : Bytes) (property : Bytes → Prop) [DecidablePred property] :
    Decidable (r.Says name property) :=
  inferInstanceAs (Decidable (∃ h ∈ r.headers, SameWord h.name name ∧ property h.value))

structure OpeningHandshake (r : Request) : Prop where
  method : r.method = ascii "GET"
  upgrade : r.Says (ascii "Upgrade") fun value => SameWord value (ascii "websocket")
  connection : r.Says (ascii "Connection") fun value =>
    ∃ word ∈ elements value, SameWord (trim word) (ascii "upgrade")
  version : r.Says (ascii "Sec-WebSocket-Version") fun value => value = ascii "13"
  key : r.Says (ascii "Sec-WebSocket-Key") fun _ => True

instance : DecidablePred OpeningHandshake := fun r =>
  decidable_of_iff (r.method = ascii "GET" ∧
      r.Says (ascii "Upgrade") (fun value => SameWord value (ascii "websocket")) ∧
      r.Says (ascii "Connection") (fun value =>
        ∃ word ∈ elements value, SameWord (trim word) (ascii "upgrade")) ∧
      r.Says (ascii "Sec-WebSocket-Version") (fun value => value = ascii "13") ∧
      r.Says (ascii "Sec-WebSocket-Key") fun _ => True)
    ⟨fun ⟨method, upgrade, connection, version, key⟩ => ⟨method, upgrade, connection, version, key⟩,
      fun ⟨method, upgrade, connection, version, key⟩ => ⟨method, upgrade, connection, version, key⟩⟩

theorem TokenChar.visible {c : Byte} (token : TokenChar c) : Visible c := by
  have all : ∀ c ∈ ascii "!#$%&'*+-.^_`|~0123456789" ++
    ascii "ABCDEFGHIJKLMNOPQRSTUVWXYZ" ++ ascii "abcdefghijklmnopqrstuvwxyz", Visible c := by decide
  exact all c token

theorem Visible.apart {c : Byte} (visible : Visible c) : c ≠ 13 ∧ c ≠ 10 ∧ c ≠ 32 ∧ ¬ Blank c := by
  have above := visible.1
  refine ⟨?_, ?_, ?_, ?_⟩
  · rintro rfl
    exact absurd above (by decide)
  · rintro rfl
    exact absurd above (by decide)
  · rintro rfl
    exact absurd above (by decide)
  · rintro (rfl | rfl) <;> exact absurd above (by decide)

theorem Token.uncolon {s : Bytes} (token : Token s) : (58 : Byte) ∉ s := by
  intro colon
  exact absurd (token.2 58 colon) (by decide)

theorem HeaderField.raw_unbroken (h : HeaderField) : ∀ c ∈ h.raw, c ≠ 13 ∧ c ≠ 10 := by
  have blanks {c : Byte} (blank : Blank c) : c ≠ 13 ∧ c ≠ 10 := by
    rcases blank with rfl | rfl <;> decide
  intro c member
  simp only [raw, List.mem_append] at member
  rcases member with front | value | back
  · exact blanks (h.blank c (List.mem_append_left _ front))
  · rcases h.content c value with visible | blank
    · exact ⟨visible.apart.1, visible.apart.2.1⟩
    · exact blanks blank
  · exact blanks (h.blank c (List.mem_append_right _ back))

/-- With one byte of whitespace in front, the rest of the line is the value when it has no
whitespace behind it. -/
theorem HeaderField.raw_tail (h : HeaderField) (one : h.front.length = 1) {word : Bytes}
    (unblank : ∀ c ∈ word, ¬ Blank c) (same : h.raw.tail = word) : h.value = word := by
  obtain ⟨c, front⟩ := List.length_eq_one_iff.mp one
  rw [raw, front, List.singleton_append, List.tail_cons] at same
  have none_ : h.back = [] := by
    refine List.eq_nil_iff_forall_not_mem.mpr fun b member => ?_
    refine unblank b ?_ (h.blank b (List.mem_append_right _ member))
    rw [← same]
    exact List.mem_append_right _ member
  rwa [none_, List.append_nil] at same

end WebsocketProto.HttpMessage
