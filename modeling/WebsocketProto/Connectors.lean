import Mathlib.Data.List.Induction
import WebsocketProto.Outcome

/-! The graphical client at one end of a connection. It shows what comes in, sends every
`HEARTBEAT` back, and reports what its socket does not take. -/
namespace WebsocketProto.Connectors

inductive ConnectorType where
  | TCP | WEBSOCKET
  deriving DecidableEq, Repr

/-- The strings that the program and the connector know of, `QString::trimmed`, and the text of
`clickHandler` for a protocol and an error. -/
structure Words (Text : Type) where
  HEARTBEAT : Text
  greeting : Text
  empty : Text
  trimmed : Text → Text
  protocol : ConnectorType → Text
  sendError : Text → Text → Text

/-- The input line, what is shown behind the line of `onConnected`, the texts of the error boxes, and
what the socket took. `typed` and `unreturned` are history: the lines that it took, and the number
of `HEARTBEAT`s that it did not. -/
structure Connector (Text : Type) where
  type : ConnectorType
  data : Text
  plainTextEdit : List Text
  boxes : List Text
  written : List Text
  typed : List Text
  unreturned : Nat
  deriving DecidableEq

/-- What happens to a connector: the line is edited, the button is clicked, or a message comes in.
The socket answers a message with its bytes, or with -1. -/
inductive Turn (Text : Type) where
  | edits (text : Text)
  | clicks (bytes : Int) (errorString : Text)
  | shows (msg : Text) (bytes : Int)
  deriving DecidableEq

def Turn.msg {Text : Type} : Turn Text → Option Text
  | .shows msg _ => some msg
  | .edits _ | .clicks _ _ => none

section Connector
variable {Text : Type} [DecidableEq Text] (words : Words Text)

def Connector.clickHandler (c : Connector Text) (bytes : Int) (errorString : Text) :
    Connector Text :=
  let msg := words.trimmed c.data
  if msg = words.empty then c
  else
    let c :=
      if bytes = -1 then
        { c with boxes := c.boxes ++ [words.sendError (words.protocol c.type) errorString] }
      else { c with written := c.written ++ [msg], typed := c.typed ++ [msg] }
    { c with data := words.empty }

def Connector.onMessageReceivedByWebSocket (c : Connector Text) (msg : Text) (bytes : Int) :
    Connector Text :=
  if msg = words.HEARTBEAT then
    if bytes = -1 then { c with unreturned := c.unreturned + 1 }
    else { c with written := c.written ++ [words.HEARTBEAT] }
  else { c with plainTextEdit := c.plainTextEdit ++ [msg] }

def Connector.turn (c : Connector Text) : Turn Text → Connector Text
  | .edits text => { c with data := text }
  | .clicks bytes errorString => c.clickHandler words bytes errorString
  | .shows msg bytes => c.onMessageReceivedByWebSocket words msg bytes

def Connector.start : Connector Text := ⟨.WEBSOCKET, words.empty, [], [], [], [], 0⟩

def Connector.turns (turns : List (Turn Text)) : Connector Text :=
  turns.foldl (Connector.turn words) (.start words)

/-- What a connector makes of the messages that came in: all but `HEARTBEAT` are shown, and every
`HEARTBEAT` was written again or refused. -/
structure Answers (c : Connector Text) (msgs : List Text) : Prop where
  shown : c.plainTextEdit = msgs.filter (· ≠ words.HEARTBEAT)
  written : c.written.filter (· ≠ words.HEARTBEAT) = c.typed.filter (· ≠ words.HEARTBEAT)
  returned : c.written.count words.HEARTBEAT + c.unreturned =
    c.typed.count words.HEARTBEAT + msgs.count words.HEARTBEAT

variable {words} {c : Connector Text} {msgs : List Text}

theorem Answers.clicks (answers : Answers words c msgs) (bytes : Int) (errorString : Text) :
    Answers words (c.clickHandler words bytes errorString) msgs := by
  have returned := answers.returned
  unfold Connector.clickHandler
  dsimp only
  split
  · exact answers
  split
  · exact ⟨answers.shown, answers.written, returned⟩
  · refine ⟨answers.shown, ?_, ?_⟩
    · simp only [List.filter_append, answers.written]
    · simp only [List.count_append]
      omega

theorem Answers.shows (answers : Answers words c msgs) (msg : Text) (bytes : Int) :
    Answers words (c.onMessageReceivedByWebSocket words msg bytes) (msgs ++ [msg]) := by
  have returned := answers.returned
  unfold Connector.onMessageReceivedByWebSocket
  split
  · rename_i beat
    subst beat
    split
    · refine ⟨by simpa using answers.shown, answers.written, ?_⟩
      simp only [List.count_append, List.count_singleton_self]
      omega
    · refine ⟨by simpa using answers.shown, by simpa using answers.written, ?_⟩
      simp only [List.count_append, List.count_singleton_self]
      omega
  · rename_i other
    refine ⟨by simp [answers.shown, other], answers.written, ?_⟩
    simpa [other] using returned

theorem turns_concat (front : List (Turn Text)) (turn : Turn Text) :
    Connector.turns words (front ++ [turn]) = (Connector.turns words front).turn words turn :=
  List.foldl_concat _ _ _ _

theorem turns_answer (turns : List (Turn Text)) :
    Answers words (Connector.turns words turns) (turns.filterMap Turn.msg) := by
  induction turns using List.reverseRecOn with
  | nil => constructor <;> rfl
  | append_singleton front turn ih =>
    rw [turns_concat, List.filterMap_append]
    cases turn with
    | edits text =>
      have quiet : [Turn.edits text].filterMap Turn.msg = [] := rfl
      rw [quiet, List.append_nil]
      exact ⟨ih.shown, ih.written, ih.returned⟩
    | clicks bytes errorString =>
      have quiet : [Turn.clicks bytes errorString].filterMap Turn.msg = [] := rfl
      rw [quiet, List.append_nil]
      exact ih.clicks bytes errorString
    | shows msg bytes => exact ih.shows msg bytes

theorem turns_written (words : Words Text) {p : Text → Prop} (beat : p words.HEARTBEAT) (empty : p words.empty)
    (trims : ∀ text, p text → p (words.trimmed text)) {turns : List (Turn Text)}
    (typed : ∀ text, Turn.edits text ∈ turns → p text) :
    p (Connector.turns words turns).data ∧ ∀ m ∈ (Connector.turns words turns).written, p m := by
  induction turns using List.reverseRecOn with
  | nil => exact ⟨empty, List.forall_mem_nil _⟩
  | append_singleton front turn ih =>
    obtain ⟨data, before⟩ := ih fun text member => typed text (List.mem_append_left _ member)
    rw [turns_concat]
    cases turn with
    | edits text => exact ⟨typed text (by simp), before⟩
    | clicks bytes errorString =>
      simp only [Connector.turn, Connector.clickHandler]
      split
      · exact ⟨data, before⟩
      split
      · exact ⟨empty, before⟩
      · exact ⟨empty, List.forall_mem_append.mpr ⟨before, by simpa using trims _ data⟩⟩
    | shows msg bytes =>
      simp only [Connector.turn, Connector.onMessageReceivedByWebSocket]
      split
      · split
        · exact ⟨data, before⟩
        · exact ⟨data, List.forall_mem_append.mpr ⟨before, by simpa using beat⟩⟩
      · exact ⟨data, before⟩

end Connector

/-- One connection: what the program sent, the connector at the other end, and how many messages
have arrived, at the program and at the connector. -/
structure Link (Text : Type) where
  sent : List Text
  connector : Connector Text
  heard : Nat
  read : Nat
  deriving DecidableEq

section Links
variable {Text : Type}

def Link.up (link : Link Text) : List Text := link.connector.written.drop link.heard

def Link.down (link : Link Text) : List Text := link.sent.drop link.read

variable [DecidableEq Text] (words : Words Text)

/-- The connector answers what it read, and the program sent back what it heard, beside greetings. -/
structure Kept (link : Link Text) : Prop where
  answers : Answers words link.connector (link.sent.take link.read)
  echoed : link.sent.filter (· ≠ words.greeting) =
    (link.connector.written.take link.heard).filter (· ≠ words.greeting)

variable {words} {link : Link Text}

/-- Apart from greetings and heartbeats, what was typed is shown or under way, in its order. -/
theorem Kept.typed_eq (kept : Kept words link) {q : Text → Bool}
    (apart : ∀ m, q m = true ↔ m ≠ words.HEARTBEAT ∧ m ≠ words.greeting) :
    link.connector.typed.filter q = link.connector.plainTextEdit.filter q ++ link.down.filter q ++
      link.up.filter q := by
  have coarse (p : Text → Bool) (keeps : ∀ m, q m = true → p m = true) (ms : List Text) :
      (ms.filter p).filter q = ms.filter q := by
    rw [List.filter_filter]
    refine List.filter_congr fun m _ => ?_
    cases here : q m with
    | false => rfl
    | true => rw [keeps m here, Bool.and_self]
  have beats (ms : List Text) : (ms.filter (· ≠ words.HEARTBEAT)).filter q = ms.filter q :=
    coarse _ (fun m here => by simpa using ((apart m).mp here).1) ms
  have greets (ms : List Text) : (ms.filter (· ≠ words.greeting)).filter q = ms.filter q :=
    coarse _ (fun m here => by simpa using ((apart m).mp here).2) ms
  have sent := congrArg (List.filter q) kept.echoed
  rw [greets, greets] at sent
  have written := congrArg (List.filter q) kept.answers.written
  rw [beats, beats] at written
  rw [kept.answers.shown, beats, ← List.filter_append, Link.down, List.take_append_drop, sent,
    ← List.filter_append, Link.up, List.take_append_drop, written]

theorem Kept.typed_count (kept : Kept words link) (differ : words.HEARTBEAT ≠ words.greeting) :
    link.connector.typed.count words.HEARTBEAT = link.down.count words.HEARTBEAT +
      link.up.count words.HEARTBEAT + link.connector.unreturned := by
  have counted (ms : List Text) :
      (ms.filter (· ≠ words.greeting)).count words.HEARTBEAT = ms.count words.HEARTBEAT :=
    List.count_filter (by simpa using differ)
  have sent := congrArg (List.count words.HEARTBEAT) kept.echoed
  rw [counted, counted] at sent
  have down := congrArg (List.count words.HEARTBEAT) (List.take_append_drop link.read link.sent)
  have up := congrArg (List.count words.HEARTBEAT)
    (List.take_append_drop link.heard link.connector.written)
  rw [List.count_append] at down up
  have returned := kept.answers.returned
  simp only [Link.down, Link.up]
  omega

end Links

end WebsocketProto.Connectors
