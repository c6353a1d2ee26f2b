import Mathlib.Data.List.Nodup
import WebsocketProto.TimeWheelSchedule

/-! The pending tasks of a wheel by their ids, and what each operation does to them.
As long as the 64-bit counter has not come round, ids are unique and `id_map_`
designates exactly the nodes of the wheel. -/
namespace WebsocketProto
open Outcome

variable {F : Type}

/-- What holds of addresses whether or not the counter of the ids has come round: an entry of
`id_map_` designates a node of its id. -/
structure Rooted (held : List (Cell F)) (idMap : Nat → Option Nat) (nextAddr : Nat) : Prop where
  addrs : (held.map Cell.addr).Nodup
  allocated : ∀ c ∈ held, c.addr < nextAddr
  found : ∀ id addr, idMap id = some addr → ∃ c ∈ held, c.addr = addr ∧ c.node.id = id

namespace Rooted
variable {held rest : List (Cell F)} {idMap : Nat → Option Nat} {nextAddr : Nat} {v : Cell F}

theorem perm {other : List (Cell F)} (rooted : Rooted held idMap nextAddr)
    (same : held.Perm other) : Rooted other idMap nextAddr where
  addrs := (same.map _).nodup_iff.mp rooted.addrs
  allocated c member := rooted.allocated c (same.mem_iff.mpr member)
  found id addr designated := by
    obtain ⟨c, member, both⟩ := rooted.found id addr designated
    exact ⟨c, same.mem_iff.mp member, both⟩

theorem addr_inj (rooted : Rooted held idMap nextAddr) {c d : Cell F} (first : c ∈ held)
    (second : d ∈ held) (same : c.addr = d.addr) : c = d :=
  List.inj_on_of_nodup_map rooted.addrs first second same

theorem forget (rooted : Rooted (v :: rest) idMap nextAddr) :
    Rooted rest (Function.update idMap v.node.id none) nextAddr where
  addrs := (List.nodup_cons.mp rooted.addrs).2
  allocated c member := rooted.allocated c (List.mem_cons_of_mem v member)
  found id addr designated := by
    by_cases same : id = v.node.id
    · simp [same] at designated
    · rw [Function.update_of_ne same] at designated
      obtain ⟨c, member, here, named⟩ := rooted.found id addr designated
      rcases List.mem_cons.mp member with rfl | member
      · exact absurd named.symm same
      · exact ⟨c, member, here, named⟩

theorem enter (rooted : Rooted held idMap nextAddr) (node : TimeNode F) :
    Rooted (⟨nextAddr, node⟩ :: held) (Function.update idMap node.id (some nextAddr))
      (nextAddr + 1) where
  addrs := by
    refine List.nodup_cons.mpr ⟨fun member => ?_, rooted.addrs⟩
    obtain ⟨c, member, same⟩ := List.mem_map.mp member
    exact absurd same (Nat.ne_of_lt (rooted.allocated c member))
  allocated c member := by
    rcases List.mem_cons.mp member with rfl | member
    · exact Nat.lt_succ_self _
    · exact Nat.lt_succ_of_lt (rooted.allocated c member)
  found id addr designated := by
    by_cases same : id = node.id
    · rw [same, Function.update_self] at designated
      exact ⟨⟨nextAddr, node⟩, List.mem_cons_self, Option.some.inj designated, same.symm⟩
    · rw [Function.update_of_ne same] at designated
      obtain ⟨c, member, both⟩ := rooted.found id addr designated
      exact ⟨c, List.mem_cons_of_mem _ member, both⟩

/-- A node that is placed again keeps its id. -/
theorem replace (rooted : Rooted (v :: rest) idMap nextAddr) (node : TimeNode F)
    (same : node.id = v.node.id) :
    Rooted (⟨nextAddr, node⟩ :: rest) (Function.update idMap node.id (some nextAddr))
      (nextAddr + 1) := by
  have entered := rooted.forget.enter node
  rwa [← same, Function.update_idem] at entered

theorem unlink (rooted : Rooted held idMap nextAddr) (member : v ∈ held) :
    Rooted (held.filter fun c => c.addr != v.addr) (Function.update idMap v.node.id none)
      nextAddr where
  addrs := (List.filter_sublist.map _).nodup rooted.addrs
  allocated c inside := rooted.allocated c (List.mem_filter.mp inside).1
  found id addr designated := by
    by_cases same : id = v.node.id
    · simp [same] at designated
    · rw [Function.update_of_ne same] at designated
      obtain ⟨c, here, rfl, named⟩ := rooted.found id addr designated
      have other : c.addr ≠ v.addr := by
        intro twin
        rw [rooted.addr_inj here member twin] at named
        exact same named.symm
      exact ⟨c, List.mem_filter.mpr ⟨here, by simpa using other⟩, rfl, named⟩

end Rooted

/-- Distinct ids, and an entry for each of them that designates its node. -/
structure Mapped (held : List (Cell F)) (idMap : Nat → Option Nat) : Prop where
  ids : (held.map fun c => c.node.id).Nodup
  designated : ∀ c ∈ held, idMap c.node.id = some c.addr

namespace Mapped
variable {held rest : List (Cell F)} {idMap : Nat → Option Nat} {v : Cell F}

theorem perm {other : List (Cell F)} (mapped : Mapped held idMap) (same : held.Perm other) :
    Mapped other idMap where
  ids := (same.map _).nodup_iff.mp mapped.ids
  designated c member := mapped.designated c (same.mem_iff.mpr member)

theorem id_inj (mapped : Mapped held idMap) {c d : Cell F} (first : c ∈ held)
    (second : d ∈ held) (same : c.node.id = d.node.id) : c = d :=
  List.inj_on_of_nodup_map mapped.ids first second same

/-- No node of the rest has the id of the first. -/
theorem alone (mapped : Mapped (v :: rest) idMap) : ∀ c ∈ rest, c.node.id ≠ v.node.id :=
  fun _ member twin => (List.nodup_cons.mp mapped.ids).1 (List.mem_map.mpr ⟨_, member, twin⟩)

theorem forget (mapped : Mapped (v :: rest) idMap) :
    Mapped rest (Function.update idMap v.node.id none) where
  ids := (List.nodup_cons.mp mapped.ids).2
  designated c member := by
    rw [Function.update_of_ne (mapped.alone c member)]
    exact mapped.designated c (List.mem_cons_of_mem v member)

/-- A node enters under an id that no other node has. -/
theorem enter (mapped : Mapped held idMap) (entering : Cell F)
    (unused : ∀ c ∈ held, c.node.id ≠ entering.node.id) :
    Mapped (entering :: held) (Function.update idMap entering.node.id (some entering.addr)) where
  ids := by
    refine List.nodup_cons.mpr ⟨fun member => ?_, mapped.ids⟩
    obtain ⟨c, member, same⟩ := List.mem_map.mp member
    exact unused c member same
  designated c member := by
    rcases List.mem_cons.mp member with rfl | member
    · exact Function.update_self _ _ _
    · rw [Function.update_of_ne (unused c member)]
      exact mapped.designated c member

/-- A node comes back under the id it left with. -/
theorem replace (mapped : Mapped (v :: rest) idMap) (entering : Cell F)
    (same : entering.node.id = v.node.id) :
    Mapped (entering :: rest) (Function.update idMap entering.node.id (some entering.addr)) := by
  have entered := mapped.forget.enter entering fun c member => same ▸ mapped.alone c member
  rwa [← same, Function.update_idem] at entered

theorem unlink (mapped : Mapped held idMap) (member : v ∈ held) :
    Mapped (held.filter fun c => c.addr != v.addr) (Function.update idMap v.node.id none) where
  ids := (List.filter_sublist.map _).nodup mapped.ids
  designated c inside := by
    obtain ⟨here, apart⟩ := List.mem_filter.mp inside
    have other : c.node.id ≠ v.node.id := by
      intro twin
      rw [mapped.id_inj here member twin] at apart
      simp at apart
    rw [Function.update_of_ne other]
    exact mapped.designated c here

end Mapped

/-- Nodes at distinct addresses with distinct ids, and the map that designates them. -/
structure Linked (held : List (Cell F)) (idMap : Nat → Option Nat) (nextAddr nextId : Nat) :
    Prop where
  addrs : (held.map Cell.addr).Nodup
  ids : (held.map fun c => c.node.id).Nodup
  allocated : ∀ c ∈ held, c.addr < nextAddr
  issued : ∀ c ∈ held, 0 < c.node.id ∧ c.node.id < nextId
  designates : ∀ id addr, idMap id = some addr ↔ ∃ c ∈ held, c.addr = addr ∧ c.node.id = id

namespace Linked
variable {held rest : List (Cell F)} {idMap : Nat → Option Nat} {nextAddr nextId : Nat} {v : Cell F}

theorem rooted (linked : Linked held idMap nextAddr nextId) : Rooted held idMap nextAddr :=
  ⟨linked.addrs, linked.allocated, fun id addr => (linked.designates id addr).mp⟩

theorem mapped (linked : Linked held idMap nextAddr nextId) : Mapped held idMap :=
  ⟨linked.ids, fun c member => (linked.designates _ _).mpr ⟨c, member, rfl, rfl⟩⟩

theorem of_both (rooted : Rooted held idMap nextAddr) (mapped : Mapped held idMap)
    (issued : ∀ c ∈ held, 0 < c.node.id ∧ c.node.id < nextId) :
    Linked held idMap nextAddr nextId := by
  refine ⟨rooted.addrs, mapped.ids, rooted.allocated, issued,
    fun id addr => ⟨rooted.found id addr, ?_⟩⟩
  rintro ⟨c, member, rfl, rfl⟩
  exact mapped.designated c member

theorem perm {other : List (Cell F)} (linked : Linked held idMap nextAddr nextId)
    (same : held.Perm other) : Linked other idMap nextAddr nextId :=
  of_both (linked.rooted.perm same) (linked.mapped.perm same)
    fun c member => linked.issued c (same.mem_iff.mpr member)

theorem id_inj (linked : Linked held idMap nextAddr nextId) {c d : Cell F} (first : c ∈ held)
    (second : d ∈ held) (same : c.node.id = d.node.id) : c = d :=
  linked.mapped.id_inj first second same

theorem addr_inj (linked : Linked held idMap nextAddr nextId) {c d : Cell F} (first : c ∈ held)
    (second : d ∈ held) (same : c.addr = d.addr) : c = d :=
  linked.rooted.addr_inj first second same

theorem forget (linked : Linked (v :: rest) idMap nextAddr nextId) :
    Linked rest (Function.update idMap v.node.id none) nextAddr nextId :=
  of_both linked.rooted.forget linked.mapped.forget
    fun c member => linked.issued c (List.mem_cons_of_mem v member)

/-- A node enters at a fresh address under an id that no other node has. -/
theorem enter (linked : Linked held idMap nextAddr nextId) (node : TimeNode F) (later : Nat)
    (unused : ∀ c ∈ held, c.node.id ≠ node.id) (positive : 0 < node.id) (bound : node.id < later)
    (grows : nextId ≤ later) :
    Linked (⟨nextAddr, node⟩ :: held) (Function.update idMap node.id (some nextAddr))
      (nextAddr + 1) later := by
  refine of_both (linked.rooted.enter node) (linked.mapped.enter ⟨nextAddr, node⟩ unused) ?_
  intro c member
  rcases List.mem_cons.mp member with rfl | member
  · exact ⟨positive, bound⟩
  · have := linked.issued c member
    exact ⟨this.1, by omega⟩

/-- A node that is placed again keeps its id and gets a new address. -/
theorem replace (linked : Linked (v :: rest) idMap nextAddr nextId) (node : TimeNode F)
    (same : node.id = v.node.id) :
    Linked (⟨nextAddr, node⟩ :: rest) (Function.update idMap node.id (some nextAddr))
      (nextAddr + 1) nextId := by
  refine of_both (linked.rooted.replace node same) (linked.mapped.replace ⟨nextAddr, node⟩ same) ?_
  intro c member
  rcases List.mem_cons.mp member with rfl | member
  · have issued := linked.issued v List.mem_cons_self
    rwa [← same] at issued
  · exact linked.issued c (List.mem_cons_of_mem v member)

theorem unlink (linked : Linked held idMap nextAddr nextId) (member : v ∈ held) :
    Linked (held.filter fun c => c.addr != v.addr) (Function.update idMap v.node.id none)
      nextAddr nextId :=
  of_both (linked.rooted.unlink member) (linked.mapped.unlink member)
    fun c inside => linked.issued c (List.mem_filter.mp inside).1

end Linked

/-- A relation between nodes and `id_map_` that no movement of nodes breaks. -/
structure Tracks (P : List (Cell F) → (Nat → Option Nat) → Nat → Prop) : Prop where
  perm {held other idMap nextAddr} : P held idMap nextAddr → held.Perm other →
    P other idMap nextAddr
  forget {v rest idMap nextAddr} : P (v :: rest) idMap nextAddr →
    P rest (Function.update idMap v.node.id none) nextAddr
  replace {v rest idMap nextAddr} (node : TimeNode F) : P (v :: rest) idMap nextAddr →
    node.id = v.node.id → P (⟨nextAddr, node⟩ :: rest)
      (Function.update idMap node.id (some nextAddr)) (nextAddr + 1)
  unlink {v held idMap nextAddr} : P held idMap nextAddr → v ∈ held →
    P (held.filter fun c => c.addr != v.addr) (Function.update idMap v.node.id none) nextAddr

theorem rooted_tracks : Tracks (@Rooted F) where
  perm := Rooted.perm
  forget := Rooted.forget
  replace node rooted := rooted.replace node
  unlink := Rooted.unlink

theorem mapped_tracks : Tracks fun (held : List (Cell F)) idMap _ => Mapped held idMap where
  perm := Mapped.perm
  forget := Mapped.forget
  replace node mapped := mapped.replace ⟨_, node⟩
  unlink := Mapped.unlink

theorem linked_tracks (nextId : Nat) :
    Tracks fun (held : List (Cell F)) idMap nextAddr => Linked held idMap nextAddr nextId where
  perm := Linked.perm
  forget := Linked.forget
  replace node linked := linked.replace node
  unlink := Linked.unlink

namespace TimeWheel

section Tracks
variable {P : List (Cell F) → (Nat → Option Nat) → Nat → Prop} {s s' : TimeWheel F}

/-- A node that left the wheel as `v` comes back; the nodes of `limbo` are still out. -/
theorem added_tracks (tracks : Tracks P) {v : Cell F} {limbo : List (Cell F)}
    (holds : P (v :: limbo ++ s.cells) s.idMap s.nextAddr) (node : TimeNode F)
    (same : node.id = v.node.id) :
    P (limbo ++ (s.added node).cells) (s.added node).idMap (s.added node).nextAddr :=
  tracks.perm (tracks.replace (s.newCell node).node holds same) (added_limbo_perm s node limbo)

theorem cascades_tracks (tracks : Tracks P) (done : cascades s = .ok s')
    (holds : P s.cells s.idMap s.nextAddr) : P s'.cells s'.idMap s'.nextAddr :=
  cascades_rule (motive := fun limbo t => P (limbo ++ t.cells) t.idMap t.nextAddr)
    (fun v _ _ holds => added_tracks tracks holds v.node rfl)
    (fun t _ inside holds => tracks.perm holds (emptied_perm t inside)) done holds

theorem begins_tracks (tracks : Tracks P) {now : Int} {settled : TimeWheel F}
    (begins : Begins s now settled s') (holds : P s.cells s.idMap s.nextAddr) :
    P s'.cells s'.idMap s'.nextAddr := by
  have moved := cascades_tracks tracks begins.cascaded holds
  have same := begins.cells_perm
  rw [begins.eq] at same ⊢
  exact tracks.perm moved same.symm

theorem fires_tracks (tracks : Tracks P) {call : Option (F × Bool × Nat)} (fires : Fires s s' call)
    (holds : P s.cells s.idMap s.nextAddr) : P s'.cells s'.idMap s'.nextAddr := by
  cases fires with
  | idle => exact holds
  | @again v rest running more =>
    have out : P (v :: [] ++ cells { s with temp := rest }) s.idMap s.nextAddr :=
      tracks.perm holds (running_perm running)
    exact added_tracks (s := { s with temp := rest, insertions := s.insertions + 1 }) tracks out
      (s.rearmed v.node) rfl
  | @last v rest running ended => exact tracks.forget (tracks.perm holds (running_perm running))

/-- What is erased is the node that `id_map_` designates. -/
theorem erases_tracks (tracks : Tracks P) {id : Nat} {found : Bool} (erases : Erases s id s' found)
    (rooted : Rooted s.cells s.idMap s.nextAddr) (holds : P s.cells s.idMap s.nextAddr) :
    P s'.cells s'.idMap s'.nextAddr := by
  cases erases with
  | absent => exact holds
  | @unlinks addr designated =>
    obtain ⟨v, member, rfl, named⟩ := rooted.found _ addr designated
    have kept := tracks.unlink holds member
    rw [named, ← filter_cells s fun c => c.addr != v.addr] at kept
    exact kept

end Tracks

/-- The tasks that have not run for the last time, with their functions. -/
def pending (s : TimeWheel F) : List (Nat × F) := s.cells.map fun c => (c.node.id, c.node.fn)

/-- The functions of these tasks, with the number of rounds that each has to go. -/
def rounds (s : TimeWheel F) : List (F × UInt32) :=
  s.cells.map fun c => (c.node.fn, c.node.circleCount)

structure Tidy (s : TimeWheel F) : Prop where
  linked : Linked s.cells s.idMap s.nextAddr s.nextId
  counted : 0 < s.nextId

theorem empty_tidy (current : Int) : (empty current : TimeWheel F).Tidy := by
  refine ⟨?_, Nat.one_pos⟩
  rw [empty_cells]
  refine ⟨.nil, .nil, ?_, ?_, fun _ _ => ⟨?_, ?_⟩⟩
  all_goals simp [empty]

theorem Tidy.unique {s : TimeWheel F} (tidy : s.Tidy) {id : Nat} {fn fn' : F}
    (first : (id, fn) ∈ s.pending) (second : (id, fn') ∈ s.pending) : fn = fn' := by
  obtain ⟨c, here, eq⟩ := List.mem_map.mp first
  obtain ⟨d, there, eq'⟩ := List.mem_map.mp second
  obtain ⟨rfl, rfl⟩ := Prod.mk.inj eq
  obtain ⟨same, rfl⟩ := Prod.mk.inj eq'
  rw [tidy.linked.id_inj here there same.symm]

theorem Tidy.bounds {s : TimeWheel F} (tidy : s.Tidy) {id : Nat} {fn : F}
    (member : (id, fn) ∈ s.pending) : 0 < id ∧ id < s.nextId := by
  obtain ⟨c, here, eq⟩ := List.mem_map.mp member
  obtain ⟨rfl, rfl⟩ := Prod.mk.inj eq
  exact tidy.linked.issued c here

theorem added_pending (s : TimeWheel F) (node : TimeNode F) (task : Nat × F) :
    task ∈ (s.added node).pending ↔ task = (node.id, node.fn) ∨ task ∈ s.pending := by
  have tasks := (added_cells_perm s node).map fun c : Cell F => (c.node.id, c.node.fn)
  rw [pending, tasks.mem_iff, List.map_cons, List.mem_cons]
  rfl

theorem added_rounds (s : TimeWheel F) (node : TimeNode F) (round : F × UInt32) :
    round ∈ (s.added node).rounds ↔ round = (node.fn, node.circleCount) ∨ round ∈ s.rounds := by
  have tasks := (added_cells_perm s node).map fun c : Cell F => (c.node.fn, c.node.circleCount)
  rw [rounds, tasks.mem_iff, List.map_cons, List.mem_cons]
  rfl

/-- What a step on the wheel leaves of the pending tasks. -/
structure Leaves (s : TimeWheel F) (left : Nat × F → Prop) : Prop where
  tidy : s.Tidy
  pending : ∀ task, task ∈ s.pending ↔ left task

theorem addTask_leaves {s s' : TimeWheel F} (tidy : s.Tidy) {now expire delay : Int} {fn : F}
    {circleCount : UInt32} {immediate : Bool} {id : Nat} (room : s.nextId < 2 ^ 32)
    (done : s.addTask now fn expire circleCount immediate delay = .ok (s', id)) :
    Leaves s' (fun task => task = (id, fn) ∨ task ∈ s.pending) ∧
      id = s.nextId ∧ s'.nextId = s.nextId + 1 ∧
      ∀ round ∈ s'.rounds, round = (fn, circleCount) ∨ round ∈ s.rounds := by
  obtain ⟨node, ⟨issued, named, _, eq⟩, rfl, rfl, _⟩ := addTask_adds done
  obtain rfl := eq
  have counted := tidy.counted
  have current : id = s.nextId := issued.trans (if_neg (Nat.ne_of_gt counted))
  have next : s.issuing.nextId = s.nextId + 1 := by
    simp only [issuing, ← issued, current]
    omega
  refine ⟨⟨⟨?_, ?_⟩, fun task => ?_⟩, current, next, fun round => (added_rounds s.issuing node round).mp⟩
  · refine Linked.perm ?_ (added_cells_perm s.issuing node).symm
    refine tidy.linked.enter (s.issuing.newCell node).node _ (fun c member => ?_) ?_ ?_ ?_
    · have older := (tidy.linked.issued c member).2
      exact fun twin => Nat.ne_of_lt older (twin.trans (named.trans current))
    · exact (named.trans current) ▸ counted
    · exact next ▸ (named.trans current) ▸ Nat.lt_succ_self _
    · exact next ▸ Nat.le_succ _
  · exact next ▸ Nat.succ_pos _
  · exact named ▸ added_pending s.issuing node task

/-- An id that is pending is erased; any other one leaves the lock held. -/
theorem eraseTask_leaves {s s' : TimeWheel F} (tidy : s.Tidy) {id : Nat} {found : Bool}
    (small : id < 2 ^ 32) (done : s.eraseTask id = .ok (s', found)) :
    Leaves s' (fun task => task ∈ s.pending ∧ task.1 ≠ id) ∧ s'.nextId = s.nextId ∧
      (found = true ↔ ∃ fn, (id, fn) ∈ s.pending) ∧ s'.locked = !found ∧
      ∀ round ∈ s'.rounds, round ∈ s.rounds := by
  obtain ⟨free, erases⟩ := eraseTask_erases done
  have low : id % 2 ^ 32 = id := Nat.mod_eq_of_lt small
  have linked := erases_tracks (linked_tracks s.nextId) erases tidy.linked.rooted tidy.linked
  cases erases with
  | absent absent =>
    have missing : ∀ fn, (id, fn) ∉ s.pending := by
      intro fn member
      obtain ⟨c, here, eq⟩ := List.mem_map.mp member
      have designated := (tidy.linked.designates c.node.id c.addr).mpr ⟨c, here, rfl, rfl⟩
      rw [(Prod.mk.inj eq).1, ← low, absent] at designated
      contradiction
    refine ⟨⟨⟨linked, tidy.counted⟩, fun task => ?_⟩, rfl, ?_, rfl, fun _ kept => kept⟩
    · refine ⟨fun member => ⟨member, ?_⟩, And.left⟩
      rintro rfl
      exact missing task.2 member
    · exact ⟨nofun, fun ⟨fn, member⟩ => absurd member (missing fn)⟩
  | @unlinks addr designated =>
    rw [low] at designated linked ⊢
    obtain ⟨v, member, rfl, rfl⟩ := (tidy.linked.designates id addr).mp designated
    have cells := filter_cells s fun c => c.addr != v.addr
    refine ⟨⟨⟨linked, tidy.counted⟩, ?_⟩, rfl, ?_, free, ?_⟩
    · intro task
      unfold pending TimeWheel.cells
      rw [cells]
      constructor
      · intro kept
        obtain ⟨c, inside, rfl⟩ := List.mem_map.mp kept
        obtain ⟨here, other⟩ := List.mem_filter.mp inside
        refine ⟨List.mem_map_of_mem here, fun twin => ?_⟩
        rw [tidy.linked.id_inj here member twin] at other
        simp at other
      · rintro ⟨kept, other⟩
        obtain ⟨c, here, rfl⟩ := List.mem_map.mp kept
        refine List.mem_map.mpr ⟨c, List.mem_filter.mpr ⟨here, ?_⟩, rfl⟩
        have apart : c.addr ≠ v.addr := fun twin =>
          other (by rw [tidy.linked.addr_inj here member twin])
        simpa using apart
    · exact iff_of_true rfl ⟨v.node.fn, List.mem_map_of_mem member⟩
    · intro round kept
      unfold rounds TimeWheel.cells at kept
      rw [cells] at kept
      obtain ⟨c, inside, rfl⟩ := List.mem_map.mp kept
      exact List.mem_map_of_mem (List.mem_filter.mp inside).1

/-- Steps that only move nodes about. -/
structure Moves (s s' : TimeWheel F) : Prop where
  leaves : Leaves s' fun task => task ∈ s.pending
  nextId : s'.nextId = s.nextId
  temp : s'.temp = s.temp
  rounds : ∀ round ∈ s'.rounds, round ∈ s.rounds

theorem cascades_moves {s s' : TimeWheel F} (done : cascades s = .ok s') (tidy : s.Tidy) :
    Moves s s' := by
  have moving := cascades_moving done
  have linked : Linked s'.cells s'.idMap s'.nextAddr s'.nextId :=
    moving.nextId ▸ cascades_tracks (linked_tracks s.nextId) done tidy.linked
  have tasks := moving.cores.map fun n => (n.id, n.fn)
  have rounds := moving.cores.map fun n => (n.fn, n.circleCount)
  rw [List.map_map, List.map_map] at tasks rounds
  exact ⟨⟨⟨linked, moving.nextId ▸ tidy.counted⟩, fun task => tasks.mem_iff⟩, moving.nextId,
    moving.temp, fun round => rounds.mem_iff.mp⟩

theorem beginTick_leaves {s s' : TimeWheel F} {now : Int} (tidy : s.Tidy)
    (done : s.beginTick now = .ok s') :
    Leaves s' (fun task => task ∈ s.pending) ∧ s'.nextId = s.nextId ∧
      ∀ round ∈ s'.rounds, round ∈ s.rounds := by
  obtain ⟨settled, begins⟩ := beginTick_begins done
  have moves := cascades_moves begins.cascaded tidy
  have same := begins.cells_perm
  rw [begins.eq] at same ⊢
  refine ⟨⟨⟨moves.leaves.tidy.linked.perm same.symm, moves.leaves.tidy.counted⟩, ?_⟩, moves.nextId, ?_⟩
  · exact fun task => (same.map _).mem_iff.trans (moves.leaves.pending task)
  · exact fun round member => moves.rounds round ((same.map _).mem_iff.mp member)

/-- Firing a task for the last time removes it; otherwise it stays under its id. -/
theorem fire_leaves {s s' : TimeWheel F} {call : Option (F × Bool × Nat)} (tidy : s.Tidy)
    (done : s.fire = .ok (s', call)) :
    s'.nextId = s.nextId ∧ match call with
    | none => Leaves s' (fun task => task ∈ s.pending) ∧ ∀ round ∈ s'.rounds, round ∈ s.rounds
    | some (fn, isDone, id) => (id, fn) ∈ s.pending ∧
      Leaves s' (fun task => task ∈ s.pending ∧ (isDone = true → task.1 ≠ id)) ∧
      ∃ count, (fn, count) ∈ s.rounds ∧ isDone = (nextCount count == 0) ∧
        ∀ round ∈ s'.rounds, round = (fn, nextCount count) ∨ round ∈ s.rounds := by
  have tasks {v : Cell F} {rest : List (Cell F)} (running : s.temp = v :: rest) (task : Nat × F) :
      task ∈ s.pending ↔ task = (v.node.id, v.node.fn) ∨ task ∈ pending { s with temp := rest } :=
    ((running_perm running).map _).mem_iff.trans List.mem_cons
  have turns {v : Cell F} {rest : List (Cell F)} (running : s.temp = v :: rest) (round : F × UInt32) :
      round ∈ s.rounds ↔
        round = (v.node.fn, v.node.circleCount) ∨ round ∈ rounds { s with temp := rest } :=
    ((running_perm running).map _).mem_iff.trans List.mem_cons
  have fires := fire_fires done
  have linked := fires_tracks (linked_tracks s.nextId) fires tidy.linked
  cases fires with
  | idle => exact ⟨rfl, ⟨tidy, fun _ => Iff.rfl⟩, fun _ => id⟩
  | @again v rest running more =>
    refine ⟨rfl, (tasks running _).mpr (Or.inl rfl), ⟨⟨linked, tidy.counted⟩, fun task => ?_⟩, _,
      (turns running _).mpr (Or.inl rfl), by simpa using more, fun round kept => ?_⟩
    · refine (added_pending _ (s.rearmed v.node) task).trans ((tasks running task).symm.trans ?_)
      exact ⟨fun kept => ⟨kept, nofun⟩, And.left⟩
    · rcases (added_rounds _ (s.rearmed v.node) round).mp kept with rfl | old
      · exact Or.inl rfl
      · exact Or.inr ((turns running round).mpr (Or.inr old))
  | @last v rest running ended =>
    have alone := (tidy.linked.perm (running_perm running)).mapped.alone
    refine ⟨rfl, (tasks running _).mpr (Or.inl rfl), ⟨⟨linked, tidy.counted⟩, fun task => ?_⟩, _,
      (turns running _).mpr (Or.inl rfl), by simpa using ended,
      fun round kept => Or.inr ((turns running round).mpr (Or.inr kept))⟩
    rw [tasks running]
    constructor
    · intro kept
      obtain ⟨c, here, rfl⟩ := List.mem_map.mp kept
      exact ⟨Or.inr kept, fun _ => alone c here⟩
    · rintro ⟨rfl | kept, other⟩
      · exact absurd rfl (other rfl)
      · exact kept

end TimeWheel
end WebsocketProto
