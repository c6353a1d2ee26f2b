/-! A lock that threads of any number take and give back: what it means that it is held
exactly while one thread is inside, and how entering, leaving and other steps keep it. -/
namespace WebsocketProto.SpinLock

variable {T : Type} {inside inside' : T → Prop} {t : T}

/-- The lock is held if and only if a thread is inside, and then it is the only one. -/
structure Balanced (locked : Bool) (inside : T → Prop) : Prop where
  held : locked = true → ∃ t, inside t
  taken : ∀ t, inside t → locked = true
  alone : ∀ t u, inside t → inside u → t = u

theorem Balanced.nobody (nobody : ∀ t, ¬ inside t) : Balanced false inside :=
  ⟨nofun, fun t here => absurd here (nobody t), fun t _ here => absurd here (nobody t)⟩

theorem Balanced.outside (balanced : Balanced false inside) (t : T) : ¬ inside t :=
  fun here => Bool.noConfusion (balanced.taken t here)

theorem Balanced.enter (balanced : Balanced false inside) (here : inside' t)
    (others : ∀ u, u ≠ t → inside' u → inside u) : Balanced true inside' := by
  have only (u : T) (there : inside' u) : u = t :=
    Classical.byContradiction fun apart => balanced.outside u (others u apart there)
  exact ⟨fun _ => ⟨t, here⟩, fun _ _ => rfl, fun u v there there' =>
    (only u there).trans (only v there').symm⟩

theorem Balanced.leave {locked : Bool} (balanced : Balanced locked inside) (here : inside t)
    (out : ¬ inside' t) (others : ∀ u, u ≠ t → inside' u → inside u) :
    Balanced false inside' := by
  refine .nobody fun u there => ?_
  have apart : u ≠ t := fun same => out (same ▸ there)
  exact apart (balanced.alone u t (others u apart there) here)

/-- A step that neither enters nor leaves. -/
theorem Balanced.still {locked : Bool} (balanced : Balanced locked inside)
    (same : ∀ u, inside' u ↔ inside u) : Balanced locked inside' := by
  refine ⟨fun locked => ?_, fun u there => balanced.taken u ((same u).mp there), ?_⟩
  · obtain ⟨u, there⟩ := balanced.held locked
    exact ⟨u, (same u).mpr there⟩
  · exact fun u v there there' => balanced.alone u v ((same u).mp there) ((same v).mp there')

end WebsocketProto.SpinLock
