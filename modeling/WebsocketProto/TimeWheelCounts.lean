import WebsocketProto.TimeWheelErasure

/-! How often a task runs. A task with a finite count is in the wheel once, with the rounds that it
has left, until its last call; everything but its own calls spares it. -/
namespace WebsocketProto
open Outcome

/-- A call of a task's function in the tick `tick` of a `check` that read `now`. -/
structure Firing where
  now : Int
  tick : Int
  isDone : Bool
  deriving DecidableEq, Repr

namespace TimeWheel
variable {F : Type} {s s' : TimeWheel F} {id : Nat}

def firing (id : Nat) (s : TimeWheel F) : WheelOp F → List Firing
  | .fire => match s.fire with
    | .ok (_, some (_, isDone, task)) => if task = id then [⟨s.now, s.current - 1, isDone⟩] else []
    | _ => []
  | _ => []

/-- The calls of a task's function in a run. -/
def firings (id : Nat) : TimeWheel F → List (WheelOp F) → List Firing
  | _, [] => []
  | s, op :: rest => firing id s op ++ match s.step op with
    | .ok s' => firings id s' rest
    | .error _ => []

/-- No other task gets the id, no erasure hits it, and no check lags 2^32 ms behind. -/
def LeavesIdAlone (id : Nat) (s : TimeWheel F) : WheelOp F → Prop
  | .addTask .. => s.getId ≠ id
  | .eraseTask other => other % 2 ^ 32 ≠ id
  | .beginTick now => now - s.current < 2 ^ 32
  | .fire => True

/-- The nodes of the id, but for what placing changes. -/
def named (id : Nat) (s : TimeWheel F) : List (TimeNode F) := s.cores.filter fun n => n.id == id

/-- The nodes of the id expire behind `bound`. -/
def Late (cells : List (Cell F)) (id : Nat) (bound : Int) : Prop :=
  ∀ c ∈ cells, c.node.id = id → bound < c.node.expire

/-- A task that waits in a running tick is there for a check that does not lag. -/
def WaitsUnlagged (id : Nat) (s : TimeWheel F) : Prop :=
  ∀ c ∈ s.temp, c.node.id = id → s.now < s.current - 1 + 2 ^ 32

/-- What a step leaves to a task that it does not call. -/
structure Spares (id : Nat) (s s' : TimeWheel F) : Prop where
  named : (s'.named id).Perm (s.named id)
  absent : s.named id = [] → s.idMap id = none → s'.idMap id = none
  current : s.current ≤ s'.current
  late : ∀ bound, bound < 2 ^ 32 - 1 + s.current → Late s.cells id bound → Late s'.cells id bound
  prompt : WaitsUnlagged id s → WaitsUnlagged id s'

/-- An expiry that is brought forward is still 2^32 - 1 ms ahead. -/
theorem place_late {current expire bound : Int} (later : bound < expire)
    (near : bound < 2 ^ 32 - 1 + current) : bound < (place current expire).2 := by
  by_cases inside : expire - current ≤ 2 ^ 32 - 1
  · rwa [place_expire current expire inside]
  · have far : (place current expire).2 = 2 ^ 32 - 1 + current := by
      simp only [place, TIME_NEAR, TIME_NEAR_SHIFT, TIME_LEVEL_SHIFT]
      repeat rw [if_neg (by omega)]
      rw [if_pos (by omega)]
    rwa [far]

theorem Late.subset {cells fewer : List (Cell F)} {bound : Int} (late : Late cells id bound)
    (subset : ∀ c ∈ fewer, c ∈ cells) : Late fewer id bound :=
  fun c member => late c (subset c member)

theorem added_late {bound : Int} {node : TimeNode F} (near : bound < 2 ^ 32 - 1 + s.current)
    (late : Late s.cells id bound) (own : node.id = id → bound < node.expire) :
    Late (s.added node).cells id bound := by
  intro c member name
  rcases List.mem_cons.mp ((added_cells_perm s node).mem_iff.mp member) with rfl | old
  · exact place_late (own name) near
  · exact late c old name

theorem named_eq (id : Nat) (s : TimeWheel F) :
    s.named id = (s.cells.filter fun c => c.node.id == id).map fun c => c.node.core := by
  rw [named, cores, List.filter_map]
  rfl

theorem named_empty : s.named id = [] ↔ Gone id s := by
  simp [named, cores, Gone, List.filter_eq_nil_iff]

theorem Spares.trans {t : TimeWheel F} (first : Spares id s t) (second : Spares id t s') :
    Spares id s s' where
  named := second.named.trans first.named
  absent gone none_ := by
    have still : t.named id = [] := List.perm_nil.mp (gone ▸ first.named)
    exact second.absent still (first.absent gone none_)
  current := Int.le_trans first.current second.current
  late bound near late := by
    have before := first.current
    exact second.late bound (by omega) (first.late bound near late)
  prompt prompt := second.prompt (first.prompt prompt)

theorem added_spares (s : TimeWheel F) (node : TimeNode F) (other : node.id ≠ id) :
    Spares id s (s.added node) where
  named := by
    have cores := (added_cores s node).filter fun n => n.id == id
    rwa [List.filter_cons_of_neg (by simpa using other)] at cores
  absent _ none_ := by simpa [added, Function.update_of_ne (Ne.symm other)] using none_
  current := Int.le_refl _
  late bound near late := added_late near late fun name => absurd name other
  prompt prompt := prompt

theorem dropped_spares {v : Cell F} {rest : List (Cell F)} (running : s.temp = v :: rest)
    (other : v.node.id ≠ id) : Spares id s { s with temp := rest } where
  named := by
    have cores := ((running_perm running).map fun c => c.node.core).filter fun n => n.id == id
    rw [List.map_cons, List.filter_cons_of_neg (by simpa using other)] at cores
    exact cores.symm
  absent _ none_ := none_
  current := Int.le_refl _
  late bound _ late := late.subset fun c member =>
    (running_perm running).mem_iff.mpr (List.mem_cons_of_mem v member)
  prompt prompt := fun c member => prompt c (by simp [running, show c ∈ rest from member])

/-- An erasure of another id takes out a node of that id. -/
theorem Erases.spares {other : Nat} {found : Bool} (erases : Erases s other s' found)
    (grounded : Grounded [] s) (apart : other % 2 ^ 32 ≠ id) : Spares id s s' := by
  cases erases with
  | absent => exact ⟨.refl _, fun _ none_ => none_, Int.le_refl _, fun _ _ late => late, fun p => p⟩
  | @unlinks addr designated =>
    obtain ⟨v, member, rfl, name⟩ := grounded.rooted.found _ addr designated
    have cells := filter_cells s fun c => c.addr != v.addr
    have kept (c : Cell F) (inside : c ∈ s.cells) : c.node.id = id → c.addr ≠ v.addr := by
      rintro rfl same
      rw [grounded.rooted.addr_inj inside member same] at apart
      exact apart name.symm
    refine ⟨?_, ?_, Int.le_refl _, ?_, ?_⟩
    · unfold named cores TimeWheel.cells
      rw [cells, List.filter_map, List.filter_map, List.filter_filter]
      refine .of_eq (congrArg _ (List.filter_congr fun c inside => ?_))
      by_cases same : c.node.id = id
      · simp [same, kept c inside same]
      · simp [same]
    · intro _ none_
      exact (Function.update_of_ne (Ne.symm apart) _ _).trans none_
    · intro bound _ late
      unfold TimeWheel.cells
      rw [cells]
      exact late.subset fun c inside => (List.mem_filter.mp inside).1
    · exact fun prompt c inside => prompt c (List.mem_filter.mp inside).1

theorem Begins.spares {now : Int} {settled : TimeWheel F} (begins : Begins s now settled s')
    (punctual : now - s.current < 2 ^ 32) : Spares id s s' := by
  have same := begins.cells_perm
  have cascaded := begins.cascaded
  have current : settled.current = s.current := (cascades_moving cascaded).current
  refine ⟨begins.cores.filter _, ?_, ?_, ?_, ?_⟩
  · intro gone none_
    have absent : (∀ c ∈ [] ++ settled.cells, c.node.id ≠ id) ∧ settled.idMap id = none := by
      refine cascades_rule (motive := fun limbo t =>
          (∀ c ∈ limbo ++ t.cells, c.node.id ≠ id) ∧ t.idMap id = none)
        (fun v limbo t gone => ?_) (fun t idx inside gone => ?_) cascaded ⟨named_empty.mp gone, none_⟩
      · have own := gone.1 v (List.mem_append_left _ List.mem_cons_self)
        refine ⟨fun c member => ?_, by simpa [added, Function.update_of_ne (Ne.symm own)] using gone.2⟩
        rcases List.mem_append.mp member with out | held
        · exact gone.1 c (List.mem_append_left _ (List.mem_cons_of_mem v out))
        · rcases List.mem_cons.mp ((added_cells_perm t v.node).mem_iff.mp held) with rfl | old
          · exact own
          · exact gone.1 c (List.mem_append_right _ old)
      · exact ⟨fun c member => gone.1 c ((emptied_perm t inside).mem_iff.mpr member), gone.2⟩
    rw [begins.eq]
    exact absent.2
  · rw [begins.eq]
    simp only [current]
    omega
  · intro bound near late
    have moved : settled.current = s.current ∧ Late ([] ++ settled.cells) id bound := by
      refine cascades_rule (motive := fun limbo t =>
          t.current = s.current ∧ Late (limbo ++ t.cells) id bound)
        (fun v limbo t late => ⟨late.1, ?_⟩) (fun t idx inside late => ⟨late.1, ?_⟩) cascaded
        ⟨rfl, late⟩
      · have placed : Late (t.added v.node).cells id bound :=
          added_late (late.1 ▸ near) (late.2.subset fun c held => List.mem_append_right _ held)
            (late.2 v (List.mem_append_left _ List.mem_cons_self))
        intro c member
        rcases List.mem_append.mp member with out | held
        · exact late.2 c (List.mem_append_left _ (List.mem_cons_of_mem v out))
        · exact placed c held
      · exact late.2.subset fun c member => (emptied_perm t inside).mem_iff.mpr member
    exact moved.2.subset fun c member => same.mem_iff.mp member
  · intro _ c _ _
    rw [begins.eq]
    simp only [current]
    omega

/-- What has become of a task after the calls `fs`. -/
structure Counting (id : Nat) (count : UInt32) (interval : Int) (fs : List Firing)
    (s : TimeWheel F) : Prop where
  flags : ∀ j f, fs[j]? = some f → f.isDone = decide (j + 1 = count.toNat)
  rising : fs.Pairwise fun f g => f.now < g.now
  pending : fs.length < count.toNat → ∃ node, s.named id = [node] ∧
    node.circleCount.toNat + fs.length = count.toNat ∧ node.interval = interval ∧
    ∀ f ∈ fs.getLast?, node.insertion.expire = f.now + interval ∧
      node.insertion.current = f.tick + 1
  ended : count.toNat ≤ fs.length →
    fs.length = count.toNat ∧ s.named id = [] ∧ s.idMap id = none
  late : ∀ f ∈ fs, f.now < 2 ^ 32 - 1 + s.current ∧ Late s.cells id f.now
  prompt : WaitsUnlagged id s

theorem Counting.spared {count : UInt32} {interval : Int} {fs : List Firing}
    (counting : Counting id count interval fs s) (spares : Spares id s s') :
    Counting id count interval fs s' where
  flags := counting.flags
  rising := counting.rising
  pending left := by
    obtain ⟨node, alone, rest⟩ := counting.pending left
    exact ⟨node, List.perm_singleton.mp (alone ▸ spares.named), rest⟩
  ended all := by
    obtain ⟨length, gone, none_⟩ := counting.ended all
    exact ⟨length, List.perm_nil.mp (gone ▸ spares.named), spares.absent gone none_⟩
  late f member := by
    obtain ⟨near, late⟩ := counting.late f member
    have current := spares.current
    exact ⟨by omega, spares.late f.now near late⟩
  prompt := spares.prompt counting.prompt

/-- The wheel is never more than one tick ahead of the clock that its ticks have read. -/
def Clocked (s : TimeWheel F) : Prop := s.current - 1 ≤ s.now

theorem nextCount_toNat (count : UInt32) (positive : 0 < count.toNat)
    (finite : count.toNat < FULL_CIRCLE.toNat) : (nextCount count).toNat = count.toNat - 1 := by
  have apart : count ≠ FULL_CIRCLE := fun same => absurd (congrArg UInt32.toNat same) (Nat.ne_of_lt finite)
  rw [nextCount, if_neg apart, UInt32.toNat_sub_of_le _ _ ?_]
  · rfl
  · exact UInt32.le_iff_toNat_le.mpr positive

section Own
variable {count : UInt32} {interval : Int} {fs : List Firing} {v : Cell F} {rest : List (Cell F)}

/-- The node of a task that is called. -/
theorem Counting.called (counting : Counting id count interval fs s)
    (running : s.temp = v :: rest) (own : v.node.id = id) :
    fs.length < count.toNat ∧ s.named id = [v.node.core] ∧
      named id { s with temp := rest } = [] := by
  have cores := ((running_perm running).map fun c => c.node.core).filter fun n => n.id == id
  rw [List.map_cons, List.filter_cons_of_pos (by simpa using own)] at cores
  have left : fs.length < count.toNat := by
    by_contra all
    have gone := (counting.ended (Nat.not_lt.mp all)).2.1
    rw [named, TimeWheel.cores] at gone
    rw [gone] at cores
    exact List.cons_ne_nil _ _ (List.nil_perm.mp cores)
  obtain ⟨node, alone, _⟩ := counting.pending left
  have single := alone
  rw [named, TimeWheel.cores] at single
  rw [single] at cores
  have eq := List.singleton_perm.mp cores
  obtain ⟨rfl, none_⟩ := List.cons.inj eq
  exact ⟨left, alone, none_.symm⟩

/-- A call reads a later clock than all calls before. -/
theorem Counting.later (counting : Counting id count interval fs s) (good : Good s)
    (clocked : Clocked s) (running : s.temp = v :: rest) (own : v.node.id = id) :
    ∀ f ∈ fs, f.now < s.now := by
  intro f member
  have here : v ∈ s.temp := running ▸ List.mem_cons_self
  have late := (counting.late f member).2 v (List.mem_append_right _ here) own
  have due := (good.laid.firing v here).1
  unfold TimeNode.due at due
  unfold Clocked at clocked
  omega

theorem Counting.flags_snoc (counting : Counting id count interval fs s) (now tick : Int) :
    ∀ j f, (fs ++ [⟨now, tick, decide (fs.length + 1 = count.toNat)⟩])[j]? = some f →
      f.isDone = decide (j + 1 = count.toNat) := by
  intro j f found
  rcases Nat.lt_trichotomy j fs.length with before | rfl | behind
  · rw [List.getElem?_append_left before] at found
    exact counting.flags j f found
  · rw [List.getElem?_append_right (Nat.le_refl _), Nat.sub_self] at found
    obtain rfl := Option.some.inj found
    rfl
  · rw [List.getElem?_eq_none (by simp; omega)] at found
    contradiction

/-- No call of the task, the one of this round included, read a later clock than `now`. -/
theorem called_upto {now tick : Int} {isDone : Bool} {f : Firing} {fs : List Firing}
    (later : ∀ f ∈ fs, f.now < now) (member : f ∈ fs ++ [⟨now, tick, isDone⟩]) : f.now ≤ now := by
  rcases List.mem_append.mp member with old | new
  · exact Int.le_of_lt (later f old)
  · exact Int.le_of_eq (congrArg Firing.now (List.mem_singleton.mp new))

theorem Counting.rising_snoc (counting : Counting id count interval fs s)
    (later : ∀ f ∈ fs, f.now < s.now) (isDone : Bool) :
    List.Pairwise (fun f g : Firing => f.now < g.now) (fs ++ [⟨s.now, s.current - 1, isDone⟩]) := by
  refine List.pairwise_append.mpr ⟨counting.rising, List.pairwise_singleton _ _, ?_⟩
  simpa using later

/-- The task is called and placed again. -/
theorem Counting.again (counting : Counting id count interval fs s) (good : Good s)
    (clocked : Clocked s) (finite : count < FULL_CIRCLE) (spaced : 1 ≤ interval)
    (running : s.temp = v :: rest) (own : v.node.id = id)
    (more : nextCount v.node.circleCount ≠ 0) {log : List WheelEvent} :
    Counting id count interval (fs ++ [⟨s.now, s.current - 1, false⟩])
      { ({ s with temp := rest, insertions := s.insertions + 1 } : TimeWheel F).added
        (s.rearmed v.node) with log := log } := by
  have later := counting.later good clocked running own
  obtain ⟨left, alone, none_⟩ := counting.called running own
  obtain ⟨node, same, turns, period, _⟩ := counting.pending left
  obtain rfl := List.singleton_inj.mp (alone.symm.trans same)
  have finite := UInt32.lt_iff_toNat_lt.mp finite
  simp only [TimeNode.core_circleCount, TimeNode.core_interval] at turns period
  have next := nextCount_toNat v.node.circleCount (by omega) (by omega)
  have two : 2 ≤ v.node.circleCount.toNat := by
    have positive : (nextCount v.node.circleCount).toNat ≠ 0 :=
      fun zero => more (UInt32.toNat_inj.mp zero)
    omega
  have prompt := counting.prompt v (running ▸ List.mem_cons_self) own
  refine ⟨?_, counting.rising_snoc later false, fun _ => ?_, fun all => ?_, ?_, ?_⟩
  · have flag : decide (fs.length + 1 = count.toNat) = false := by simp; omega
    exact flag ▸ counting.flags_snoc s.now (s.current - 1)
  · refine ⟨(s.rearmed v.node).core, ?_, ?_, period, ?_⟩
    · have cores := (added_cores { s with temp := rest, insertions := s.insertions + 1 }
        (s.rearmed v.node)).filter fun n => n.id == id
      rw [List.filter_cons_of_pos (by simpa [rearmed] using own)] at cores
      exact List.perm_singleton.mp (cores.trans (.of_eq (congrArg _ none_)))
    · simp only [rearmed, TimeNode.core_circleCount, next, List.length_append, List.length_singleton]
      omega
    · simp [rearmed, period]
  · simp only [List.length_append, List.length_singleton] at all
    omega
  · have out : Late (cells { s with temp := rest, insertions := s.insertions + 1 }) id s.now :=
      fun c member name => absurd name (named_empty.mp none_ c member)
    intro f member
    have upto := called_upto later member
    refine ⟨by simp only [added]; omega, ?_⟩
    exact added_late (by simp only; omega) (fun c member name => Int.lt_of_le_of_lt upto (out c member name))
      fun _ => by simp only [rearmed, period]; omega
  · exact fun c member => counting.prompt c (running ▸ List.mem_cons_of_mem v member)

/-- The task is called for the last time. -/
theorem Counting.last (counting : Counting id count interval fs s) (good : Good s)
    (clocked : Clocked s) (finite : count < FULL_CIRCLE)
    (running : s.temp = v :: rest) (own : v.node.id = id)
    (ended : nextCount v.node.circleCount = 0) {log : List WheelEvent} :
    Counting id count interval (fs ++ [⟨s.now, s.current - 1, true⟩])
      { s with temp := rest, idMap := Function.update s.idMap v.node.id none, log := log } := by
  have later := counting.later good clocked running own
  obtain ⟨left, alone, none_⟩ := counting.called running own
  obtain ⟨node, same, turns, _, _⟩ := counting.pending left
  obtain rfl := List.singleton_inj.mp (alone.symm.trans same)
  have finite := UInt32.lt_iff_toNat_lt.mp finite
  simp only [TimeNode.core_circleCount] at turns
  have next := nextCount_toNat v.node.circleCount (by omega) (by omega)
  have one : v.node.circleCount.toNat = 1 := by
    rw [ended] at next
    simp at next
    omega
  have full : fs.length + 1 = count.toNat := by omega
  have prompt := counting.prompt v (running ▸ List.mem_cons_self) own
  refine ⟨?_, counting.rising_snoc later true, fun less => ?_, fun _ => ⟨?_, none_, ?_⟩, ?_, ?_⟩
  · have flag : decide (fs.length + 1 = count.toNat) = true := decide_eq_true full
    exact flag ▸ counting.flags_snoc s.now (s.current - 1)
  · simp only [List.length_append, List.length_singleton] at less
    omega
  · simpa using full
  · simp [own]
  · intro f member
    have upto := called_upto later member
    exact ⟨by simp only; omega, fun c member name => absurd name (named_empty.mp none_ c member)⟩
  · exact fun c member => counting.prompt c (running ▸ List.mem_cons_of_mem v member)

end Own

/-- What holds of every reachable wheel. -/
structure Sound (s : TimeWheel F) : Prop where
  good : Good s
  grounded : Grounded [] s
  clocked : Clocked s

theorem step_sound (s : TimeWheel F) (op : WheelOp F) (s' : TimeWheel F) (sound : Sound s)
    (done : s.step op = .ok s') : Sound s' := by
  refine ⟨step_good s op s' sound.good done, step_grounded s op s' sound.grounded done, ?_⟩
  have step := step_cases done
  cases op with
  | addTask =>
    obtain ⟨node, id, adds⟩ := step
    obtain rfl := adds.eq
    exact sound.clocked
  | eraseTask id =>
    obtain ⟨found, erases⟩ := step
    cases erases <;> exact sound.clocked
  | beginTick now =>
    obtain ⟨settled, begins⟩ := step
    have current := (cascades_moving begins.cascaded).current
    have reached := begins.reached
    simp only [Clocked, begins.eq]
    omega
  | fire =>
    obtain ⟨call, _, fires⟩ := step
    cases fires <;> exact sound.clocked

theorem run_sound {current : Int} {ops : List (WheelOp F)}
    (done : run step (empty current) ops = .ok s) : Sound s :=
  run_invariant step_sound ⟨empty_good current, empty_grounded current, by simp [Clocked, empty]⟩ done

section Counted
variable {count : UInt32} {interval : Int} {fs : List Firing}

theorem step_counting (sound : Sound s) (finite : count < FULL_CIRCLE) (spaced : 1 ≤ interval)
    (counting : Counting id count interval fs s) {op : WheelOp F} (others : LeavesIdAlone id s op)
    (done : s.step op = .ok s') : Counting id count interval (fs ++ firing id s op) s' := by
  have uncalled (none_ : firing id s op = []) : fs ++ firing id s op = fs := by simp [none_]
  have step := step_cases done
  cases op with
  | addTask =>
    obtain ⟨node, new, adds⟩ := step
    obtain rfl := adds.eq
    have other : node.id ≠ id := fun same => others (adds.issued.symm.trans (adds.named.symm.trans same))
    obtain ⟨named, absent, current, late, prompt⟩ := added_spares s.issuing node other
    rw [uncalled rfl]
    exact counting.spared ⟨named, absent, current, late, prompt⟩
  | eraseTask other =>
    obtain ⟨found, erases⟩ := step
    rw [uncalled rfl]
    exact counting.spared (erases.spares sound.grounded others)
  | beginTick now =>
    obtain ⟨settled, begins⟩ := step
    rw [uncalled rfl]
    exact counting.spared (begins.spares others)
  | fire =>
    obtain ⟨call, fired, fires⟩ := step
    have none_ {v : Cell F} {isDone : Bool} (called : call = some (v.node.fn, isDone, v.node.id))
        (other : v.node.id ≠ id) : firing id s .fire = [] := by simp [firing, fired, called, other]
    have one {v : Cell F} {isDone : Bool} (called : call = some (v.node.fn, isDone, v.node.id))
        (own : v.node.id = id) : firing id s .fire = [⟨s.now, s.current - 1, isDone⟩] := by
      simp [firing, fired, called, own]
    cases fires with
    | idle =>
      rw [uncalled (by simp [firing, fired])]
      exact counting
    | @again v rest running more =>
      by_cases own : v.node.id = id
      · rw [one rfl own]
        exact counting.again sound.good sound.clocked finite spaced running own more
      · have spares := (dropped_spares running own).trans
          (added_spares _ (s.rearmed v.node) own)
        rw [uncalled (none_ rfl own)]
        exact counting.spared ⟨spares.named, spares.absent, spares.current, spares.late, spares.prompt⟩
    | @last v rest running ended =>
      by_cases own : v.node.id = id
      · rw [one rfl own]
        exact counting.last sound.good sound.clocked finite running own ended
      · have spares := dropped_spares running own
        rw [uncalled (none_ rfl own)]
        exact counting.spared ⟨spares.named, fun gone none_ =>
          (Function.update_of_ne (Ne.symm own) _ _).trans none_, spares.current, spares.late,
          spares.prompt⟩

theorem run_counting (sound : Sound s) (finite : count < FULL_CIRCLE) (spaced : 1 ≤ interval)
    (counting : Counting id count interval fs s) {ops : List (WheelOp F)}
    (others : Along step (LeavesIdAlone id) s ops) (done : run step s ops = .ok s') :
    Counting id count interval (fs ++ firings id s ops) s' := by
  induction ops generalizing s fs with
  | nil =>
    obtain rfl := Except.ok.inj done
    simpa [firings] using counting
  | cons op rest ih =>
    obtain ⟨next, taken, later⟩ := bind_eq_ok.mp done
    have one := step_counting sound finite spaced counting others.1 taken
    have all := ih (step_sound s op next sound taken) one (others.2 next taken) later
    simpa [firings, taken] using all

end Counted

theorem addTask_counting {now delay : Int} {fn : F} {interval : Int} {count : UInt32}
    {immediate : Bool} (positive : 1 ≤ count) (unused : Gone id s)
    (added : s.addTask now fn interval count immediate delay = .ok (s', id)) :
    Counting id count interval [] s' := by
  obtain ⟨node, adds, _, turns, period, _⟩ := addTask_adds added
  obtain rfl := adds.eq
  have positive := UInt32.le_iff_toNat_le.mp positive
  refine ⟨nofun, .nil, fun _ => ⟨node.core, ?_, ?_, period, nofun⟩, fun none_ => ?_, nofun, ?_⟩
  · have cores := (added_cores s.issuing node).filter fun n => n.id == id
    rw [List.filter_cons_of_pos (by simpa using adds.named)] at cores
    exact List.perm_singleton.mp (cores.trans (.of_eq (congrArg _ (named_empty.mpr unused))))
  · simp [turns]
  · simp at none_ positive
    omega
  · exact fun c member name => absurd name (unused c (List.mem_append_right _ member))

theorem Good.genuine (good : Good s) {c : Cell F} (member : c ∈ s.cells) : c.node.Genuine := by
  rcases List.mem_append.mp member with listed | running
  · obtain ⟨idx, _, listed⟩ := List.mem_flatMap.mp listed
    exact (good.laid.placed idx c listed).2
  · exact (good.laid.firing c running).2

/-- The node of a task that has calls left. -/
theorem Counting.cell {count : UInt32} {interval : Int} {fs : List Firing}
    (counting : Counting id count interval fs s) (good : Good s) (left : fs.length < count.toNat) :
    ∃ v, s.cells.filter (fun c => c.node.id == id) = [v] ∧
      v.node.circleCount.toNat = count.toNat - fs.length ∧
      ∀ f ∈ fs.getLast?, f.now + interval - (f.tick + 1) ≤ 2 ^ 32 - 1 →
        v.node.expire = f.now + interval := by
  obtain ⟨node, alone, turns, _, last⟩ := counting.pending left
  rw [named_eq] at alone
  obtain ⟨v, same, core⟩ := List.map_eq_singleton_iff.mp alone
  have member : v ∈ s.cells := (List.mem_filter.mp (same ▸ List.mem_cons_self)).1
  refine ⟨v, same, ?_, fun f final near => ?_⟩
  · rw [← core, TimeNode.core_circleCount] at turns
    omega
  · obtain ⟨expire, current⟩ := last f final
    rw [← core, TimeNode.core_insertion] at expire current
    exact (good.genuine member (by rw [Insertion.Near, expire, current]; exact near)).trans expire

end TimeWheel

/-- For every task with a finite count, added in any reachable state under an id that no pending
task has, and every run behind. All ticks of one `check` read the same clock, so a strictly rising
clock means that no `check` calls the task twice. -/
theorem finite_task_counts {F : Type} {current : Int} {before : List (WheelOp F)}
    {s0 s1 s : TimeWheel F} (reached : run TimeWheel.step (.empty current) before = .ok s0)
    {now delay : Int} {fn : F} {interval : Int} {count : UInt32} {immediate : Bool} {id : Nat}
    (positive : 1 ≤ count) (finite : count < FULL_CIRCLE) (spaced : 1 ≤ interval)
    (unused : ∀ c ∈ s0.cells, c.node.id ≠ id)
    (added : s0.addTask now fn interval count immediate delay = .ok (s1, id))
    {ops : List (WheelOp F)} (others : Along TimeWheel.step (TimeWheel.LeavesIdAlone id) s1 ops)
    (done : run TimeWheel.step s1 ops = .ok s) {fs : List Firing}
    (calls : fs = TimeWheel.firings id s1 ops) :
    (∀ j f, fs[j]? = some f → f.isDone = decide (j + 1 = count.toNat)) ∧
    fs.Pairwise (fun f g => f.now < g.now) ∧
    (fs.length < count.toNat → ∃ v, s.cells.filter (fun c => c.node.id == id) = [v] ∧
      v.node.circleCount.toNat = count.toNat - fs.length ∧
      ∀ f ∈ fs.getLast?, f.now + interval - (f.tick + 1) ≤ 2 ^ 32 - 1 →
        v.node.expire = f.now + interval) ∧
    (count.toNat ≤ fs.length → fs.length = count.toNat ∧ (∀ c ∈ s.cells, c.node.id ≠ id) ∧
      s.idMap id = none) := by
  have sound := TimeWheel.run_sound reached
  have step : s0.step (.addTask now fn interval count immediate delay) = .ok s1 := by
    simp [TimeWheel.step, added]
  have sound1 := TimeWheel.step_sound s0 _ s1 sound step
  have started := TimeWheel.addTask_counting positive unused added
  have counting := TimeWheel.run_counting sound1 finite spaced started others done
  rw [List.nil_append, ← calls] at counting
  have finished := run_invariant TimeWheel.step_sound sound1 done
  refine ⟨counting.flags, counting.rising, counting.cell finished.good, fun all => ?_⟩
  obtain ⟨length, gone, none_⟩ := counting.ended all
  exact ⟨length, TimeWheel.named_empty.mp gone, none_⟩

instance (id : Nat) (s : TimeWheel F) (op : WheelOp F) : Decidable (TimeWheel.LeavesIdAlone id s op) := by
  cases op <;> unfold TimeWheel.LeavesIdAlone <;> infer_instance

/-- A task that runs twice, after its first call. -/
theorem twice_called_once : ∃ s0 s1 : TimeWheel Unit,
    (TimeWheel.empty 1).addTask 1 () 3 2 true 0 = .ok (s0, 1) ∧
    run TimeWheel.step s0 [.beginTick 1, .fire] = .ok s1 ∧
    ∃ v, s1.cells.filter (fun c => c.node.id == 1) = [v] ∧ v.node.circleCount.toNat = 1 := by
  have ran : ∃ s0 s1 : TimeWheel Unit, (TimeWheel.empty 1).addTask 1 () 3 2 true 0 = .ok (s0, 1) ∧
      Along TimeWheel.step (TimeWheel.LeavesIdAlone 1) s0 [.beginTick 1, .fire] ∧
      run TimeWheel.step s0 [.beginTick 1, .fire] = .ok s1 ∧
      (TimeWheel.firings 1 s0 [.beginTick 1, .fire]).length = 1 :=
    ⟨_, _, rfl, by decide +kernel, rfl, by decide +kernel⟩
  obtain ⟨s0, s1, added, others, done, one⟩ := ran
  have start : run TimeWheel.step (.empty 1 : TimeWheel Unit) [] = .ok (.empty 1) := rfl
  have counts := finite_task_counts start (by decide) (by decide) (by decide) (by decide +kernel)
    added others done rfl
  obtain ⟨v, alone, turns, _⟩ := counts.2.2.1 (by rw [one]; decide)
  exact ⟨s0, s1, added, done, v, alone, by rw [turns, one]; rfl⟩

namespace TimeWheel

theorem addTask_free (s : TimeWheel F) (now expire delay : Int) (fn : F) (circleCount : UInt32)
    (immediate : Bool) (free : s.locked = false) :
    ∃ s', s.addTask now fn expire circleCount immediate delay = .ok (s', s.getId) ∧
      s'.locked = false := by
  obtain ⟨s', inserted, free'⟩ := insertNode_free { s with nextId := (s.getId + 1) % 2 ^ 64 }
    ⟨fn, now + if immediate then delay else expire + delay, expire, circleCount, 0, s.getId,
      ⟨0, 0, 0, 0⟩⟩ free
  exact ⟨s', by rw [addTask, inserted]; rfl, free'⟩

/-- An erasure that hits the id takes its only node out. -/
theorem Erases.hits {id other : Nat} {s s' : TimeWheel F} (erases : Erases s other s' true)
    (grounded : Grounded [] s) (hit : other % 2 ^ 32 = id) (single : (s.named id).length = 1) :
    s'.named id = [] := by
  cases erases with
  | @unlinks addr designated =>
    obtain ⟨v, member, rfl, name⟩ := grounded.rooted.found _ addr designated
    rw [named_eq, List.length_map] at single
    obtain ⟨x, only⟩ := List.length_eq_one_iff.mp single
    have same (c : Cell F) (inside : c ∈ s.cells) (own : c.node.id = id) : c = x := by
      have one : c ∈ s.cells.filter fun c => c.node.id == id :=
        List.mem_filter.mpr ⟨inside, by simpa using own⟩
      rw [only] at one
      exact List.mem_singleton.mp one
    refine named_empty.mpr fun c kept own => ?_
    unfold TimeWheel.cells at kept
    rw [filter_cells s fun c => c.addr != v.addr] at kept
    obtain ⟨inside, apart⟩ := List.mem_filter.mp kept
    rw [same c inside own, same v member (name.trans hit)] at apart
    simp at apart

/-- The condition of callers that erase other tasks, each while it is pending. -/
def OtherTasks (id : Nat) (s : TimeWheel F) : WheelOp F → Prop
  | .eraseTask other => other ≠ id ∧ ∃ c ∈ s.cells, c.node.id = other
  | .beginTick now => now - s.current < 2 ^ 32
  | _ => True

/-- Further tasks, in front of a run. -/
theorem flood (n : Nat) (s : TimeWheel Unit) (rest : List (WheelOp Unit)) (free : s.locked = false)
    (counted : 1 < s.nextId) (room : s.nextId + n < 2 ^ 64) (grounded : Grounded [] s) :
    ∃ s', s'.locked = false ∧ s'.nextId = s.nextId + n ∧ Grounded [] s' ∧
      s'.idMap 1 = s.idMap 1 ∧ (s'.named 1).Perm (s.named 1) ∧
      ∃ ops, run step s (ops ++ rest) = run step s' rest ∧
        firings 1 s (ops ++ rest) = firings 1 s' rest ∧
        (Along step (OtherTasks 1) s' rest → Along step (OtherTasks 1) s (ops ++ rest)) := by
  induction n generalizing s with
  | zero => exact ⟨s, free, rfl, grounded, rfl, .refl _, [], rfl, rfl, id⟩
  | succ n ih =>
    obtain ⟨next, added, free'⟩ := addTask_free s 1 1000 0 () FULL_CIRCLE false free
    have done : s.step (.addTask 1 () 1000 FULL_CIRCLE false 0) = .ok next := by simp [step, added]
    have grounded' := step_grounded s _ next grounded done
    obtain ⟨node, adds, _⟩ := addTask_adds added
    obtain rfl := adds.eq
    have issued : s.getId = s.nextId := if_neg (by omega)
    have other : node.id ≠ 1 := by
      rw [adds.named, issued]
      omega
    have nextId : s.issuing.nextId = s.nextId + 1 := by
      simp only [issuing, issued]
      omega
    obtain ⟨s', unlocked, later, sound, idMap, named, ops, ran, called, along⟩ := ih _ free'
      (by show 1 < s.issuing.nextId; omega) (by show s.issuing.nextId + n < _; omega) grounded'
    have counts : s'.nextId = s.nextId + (n + 1) :=
      later.trans (by show s.issuing.nextId + n = _; omega)
    refine ⟨s', unlocked, counts, sound, idMap.trans (Function.update_of_ne (Ne.symm other) _ _),
      named.trans (added_spares s.issuing node other).named,
      .addTask 1 () 1000 FULL_CIRCLE false 0 :: ops, ?_, ?_, fun later => ⟨trivial, fun t taken => ?_⟩⟩
    · rw [List.cons_append, run, done, ok_bind, ran]
    · rw [List.cons_append, firings, done, firing]
      exact called
      rintro ⟨⟩
    · obtain rfl := Except.ok.inj (done.symm.trans taken)
      exact along later

end TimeWheel

/-- Between the two calls of a task 2^32 others are added, and the last of them is erased. -/
theorem other_erasure_hits : ¬ ∀ (s0 s1 : TimeWheel Unit) (ops : List (WheelOp Unit)),
    (TimeWheel.empty 1).addTask 1 () 3 2 true 0 = .ok (s0, 1) →
    Along TimeWheel.step (TimeWheel.OtherTasks 1) s0 ops → run TimeWheel.step s0 ops = .ok s1 →
    (TimeWheel.firings 1 s0 ops).length = 1 →
    ∃ v, s1.cells.filter (fun c => c.node.id == 1) = [v] := by
  intro always
  have ran : ∃ s0 s1 s : TimeWheel Unit, (TimeWheel.empty 1).addTask 1 () 3 2 true 0 = .ok (s0, 1) ∧
      s0.step (.beginTick 1) = .ok s1 ∧ s1.step .fire = .ok s ∧
      1 - s0.current < 2 ^ 32 ∧ (TimeWheel.firing 1 s1 .fire).length = 1 ∧ s.locked = false ∧
      s.nextId = 2 ∧ (s.idMap 1).isSome ∧ (s.named 1).length = 1 ∧
      run TimeWheel.step (.empty 1) [.addTask 1 () 3 2 true 0, .beginTick 1, .fire] = .ok s :=
    ⟨_, _, _, rfl, rfl, rfl, by decide, by decide +kernel, rfl, rfl, rfl, by decide +kernel, rfl⟩
  obtain ⟨s0, s1, s, added, begun, fired, prompt, called, free, nextId, designated, alone, reached⟩ := ran
  obtain ⟨e, big⟩ : ∃ e, e = 2 ^ 32 + 1 := ⟨_, rfl⟩
  obtain ⟨t, unlocked, next, grounded, idMap, named, ops, ran, calls, along⟩ :=
    TimeWheel.flood (2 ^ 32 - 1) s
      [.addTask 1 () 1000 FULL_CIRCLE false 0, .eraseTask e] free (by omega) (by omega)
      (TimeWheel.run_grounded reached)
  obtain ⟨u, last, unlocked'⟩ := t.addTask_free 1 1000 0 () FULL_CIRCLE false unlocked
  have issued : t.getId = e := by
    rw [TimeWheel.getId, if_neg (by omega)]
    omega
  have adding : t.step (.addTask 1 () 1000 FULL_CIRCLE false 0) = .ok u := by
    simp [TimeWheel.step, last]
  have grounded' := TimeWheel.step_grounded t _ u grounded adding
  obtain ⟨node, adds, _⟩ := TimeWheel.addTask_adds last
  have other : node.id = e := adds.named.trans issued
  have same := adds.eq
  have found : u.idMap 1 = s.idMap 1 := by
    rw [same]
    exact (Function.update_of_ne (by omega) _ _).trans idMap
  have single : (u.named 1).length = 1 := by
    rw [same]
    exact ((TimeWheel.added_spares t.issuing node (by omega)).named.trans named).length_eq.trans alone
  have there : ∃ c ∈ u.cells, c.node.id = e := by
    rw [same]
    exact ⟨_, (TimeWheel.added_cells_perm t.issuing node).mem_iff.mpr List.mem_cons_self, other⟩
  obtain ⟨addr, there_⟩ := Option.isSome_iff_exists.mp designated
  have low : e % 2 ^ 32 = 1 := by omega
  obtain ⟨w, erased⟩ : ∃ w, u.eraseTask e = .ok (w, true) := by
    simp only [TimeWheel.eraseTask, unlocked', low, found, there_]
    exact ⟨_, rfl⟩
  have erasing : u.step (.eraseTask e) = .ok w := by simp [TimeWheel.step, erased]
  have rest : run TimeWheel.step t [.addTask 1 () 1000 FULL_CIRCLE false 0, .eraseTask e] =
      .ok w := by simp [run, adding, erasing]
  have whole : run TimeWheel.step s0 (.beginTick 1 :: .fire :: (ops ++
      [.addTask 1 () 1000 FULL_CIRCLE false 0, .eraseTask e])) = .ok w := by
    rw [run, begun, ok_bind, run, fired, ok_bind, ran, rest]
  have once : (TimeWheel.firings 1 s0 (.beginTick 1 :: .fire :: (ops ++
      [.addTask 1 () 1000 FULL_CIRCLE false 0, .eraseTask e]))).length = 1 := by
    simpa [TimeWheel.firings, begun, fired, calls, adding, erasing, TimeWheel.firing] using called
  have others : Along TimeWheel.step (TimeWheel.OtherTasks 1) t
      [.addTask 1 () 1000 FULL_CIRCLE false 0, .eraseTask e] := by
    refine ⟨trivial, fun a taken => ⟨⟨by omega, ?_⟩, fun _ _ => trivial⟩⟩
    obtain rfl := Except.ok.inj (adding.symm.trans taken)
    exact there
  have all : Along TimeWheel.step (TimeWheel.OtherTasks 1) s0 (.beginTick 1 :: .fire :: (ops ++
      [.addTask 1 () 1000 FULL_CIRCLE false 0, .eraseTask e])) := by
    refine ⟨prompt, fun a taken => ⟨trivial, fun b taken' => ?_⟩⟩
    obtain rfl := Except.ok.inj (begun.symm.trans taken)
    obtain rfl := Except.ok.inj (fired.symm.trans taken')
    exact along others
  obtain ⟨v, left⟩ := always s0 w _ added all whole once
  have gone := (TimeWheel.eraseTask_erases erased).2.hits grounded' low single
  rw [TimeWheel.named_eq, left] at gone
  contradiction

end WebsocketProto
