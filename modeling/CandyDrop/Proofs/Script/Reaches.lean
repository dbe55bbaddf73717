import CandyDrop.Proofs.Cluster.World

/-!
# What a script can reach

`Reaches path P Q s w` says that from the world `w` the script `s` can be answered in such a way that
every event satisfies `P` and can happen, and that it ends with a value and in a world that satisfy
`Q`. It is read off the script, stage by stage (`Reaches.bind`), and then there is such a run
(`Reaches.exists_runs`).
-/

namespace CandyDrop.Script

variable {α β : Type} {path : String} {P : Event → Prop} {Q : α → World → Prop}
  {R : β → World → Prop} {w : World}

/-- With some answers that satisfy `P` and can be given, the script ends with `Q`. -/
def Reaches (path : String) (P : Event → Prop) (Q : α → World → Prop) : Script α → World → Prop
  | .done x, w => Q x w
  | .fail _, _ => False
  | .ask r next, w => ∃ a, P ⟨r, a⟩ ∧ w.permits path ⟨r, a⟩ ∧
    Reaches path P Q (next a) (w.step path ⟨r, a⟩)

theorem Reaches.ask {r : Request} {next : r.Answer → Script α} (a : r.Answer) (hP : P ⟨r, a⟩)
    (hpermits : w.permits path ⟨r, a⟩) (h : (next a).Reaches path P Q (w.step path ⟨r, a⟩)) :
    (Script.ask r next).Reaches path P Q w :=
  ⟨a, hP, hpermits, h⟩

theorem Reaches.exists_runs {s : Script α} (h : s.Reaches path P Q w) :
    ∃ es x w', s.Runs es (.ok x) ∧ w.Follows path es w' ∧ (∀ e ∈ es, P e) ∧ Q x w' := by
  induction s generalizing w with
  | done x => exact ⟨[], x, w, .done x, rfl, by simp, h⟩
  | fail e => exact h.elim
  | ask r next ih =>
    obtain ⟨a, hP, hpermits, hnext⟩ := h
    obtain ⟨es, x, w', hrun, hw, hes, hQ⟩ := ih a hnext
    exact ⟨⟨r, a⟩ :: es, x, w', .ask hrun, ⟨hpermits, hw⟩, List.forall_mem_cons.2 ⟨hP, hes⟩, hQ⟩

theorem Reaches.bind {s : Script α} {f : α → Script β} (h : s.Reaches path P Q w)
    (hf : ∀ x v, Q x v → (f x).Reaches path P R v) : (s >>= f).Reaches path P R w := by
  induction s generalizing w with
  | done x => exact hf x w h
  | fail e => exact h.elim
  | ask r next ih =>
    obtain ⟨a, hP, hpermits, hnext⟩ := h
    exact ⟨a, hP, hpermits, ih a hnext⟩

/-! ## Stages that leave the world as it is -/

/-- With some answers the script ends with this value and changes nothing. -/
def Gives (path : String) (P : Event → Prop) (s : Script α) (x : α) (w : World) : Prop :=
  s.Reaches path P (fun y v => y = x ∧ v = w) w

variable {s : Script α} {f : α → Script β} {x : α}

theorem Gives.bind (h : s.Gives path P x w) (hf : (f x).Reaches path P R w) :
    (s >>= f).Reaches path P R w :=
  Reaches.bind h fun _ _ hx => hx.1 ▸ hx.2 ▸ hf

theorem gives_done (x : α) : (done x).Gives path P x w := ⟨rfl, rfl⟩

theorem gives_ofExcept {ε : Type} {failure : ε → Failure} {e : Except ε α} (h : e = .ok x) :
    (ofExcept failure e).Gives path P x w := by
  subst h
  exact gives_done x

theorem gives_say {line : String} (hP : P ⟨.say line, ()⟩) : (say line).Gives path P () w :=
  .ask () hP rfl ⟨rfl, rfl⟩

end CandyDrop.Script
