import CandyDrop.Proofs.Cluster.World
import CandyDrop.Proofs.Script.Runs

/-!
# Scripts that look at the disk

What a command finds in local files is known before it runs, if the disk is. `Script.Finds` says of
a script that it asks for nothing but what is on the disk, which fault it then ends with, if any, and
what holds of its value if there is none. The faults of two stages are those of the first one, and
of the second one if there are none (`Finds.bind`), so the fault of a script is the first one of its
checks in their order, whichever of the others fail as well.
-/

namespace CandyDrop

/-! ## Faults of values -/

section

variable {α β ε : Type} {failure : ε → Failure}

/-- The failure that there is instead of a value. -/
def faultOf (failure : ε → Failure) : Except ε α → Option Failure
  | .ok _ => none
  | .error e => some (failure e)

/-- The first fault of two steps. -/
theorem faultOf_bind {x : Except ε α} {f : α → Except ε β} {second : Option Failure}
    (h : ∀ a, x = .ok a → faultOf failure (f a) = second) :
    faultOf failure (x >>= f) = (faultOf failure x).or second := by
  cases x with
  | ok a => exact h a rfl
  | error e => rfl

theorem faultOf_map {x : Except ε α} (g : α → β) :
    faultOf failure (x >>= fun a => .ok (g a)) = faultOf failure x := by
  cases x <;> rfl

/-- A fault, if something is broken. -/
def faultIf (broken : Prop) [Decidable broken] (fault : Failure) : Option Failure :=
  if broken then some fault else none

theorem faultIf_congr {p q : Prop} [Decidable p] [Decidable q] {fault : Failure} (h : p ↔ q) :
    faultIf p fault = faultIf q fault := by
  by_cases hp : p
  · rw [faultIf, faultIf, if_pos hp, if_pos (h.1 hp)]
  · rw [faultIf, faultIf, if_neg hp, if_neg (mt h.2 hp)]

/-- A step that fails if it is not within a limit. -/
theorem faultOf_unless {within broken : Prop} [Decidable within] [Decidable broken] {a : α} {e : ε}
    (h : ¬within ↔ broken) : faultOf failure (if within then .ok a else .error e : Except ε α) =
      faultIf broken (failure e) := by
  rw [← faultIf_congr h, faultIf]
  by_cases hwithin : within
  · rw [if_pos hwithin, if_neg (not_not_intro hwithin), faultOf]
  · rw [if_neg hwithin, if_pos hwithin, faultOf]

/-- A limit that is checked before the rest. -/
theorem faultOf_ite {broken : Prop} [Decidable broken] {e : ε} {x : Except ε α}
    {second : Option Failure} (h : ¬broken → faultOf failure x = second) :
    faultOf failure (if broken then .error e else x) =
      (faultIf broken (failure e)).or second := by
  by_cases hbroken : broken
  · rw [if_pos hbroken, faultIf, if_pos hbroken, faultOf, Option.some_or]
  · rw [if_neg hbroken, faultIf, if_neg hbroken, h hbroken, Option.none_or]

theorem faultOf_guard {broken : Prop} [Decidable broken] {e : ε} {a : α} :
    faultOf failure (if broken then .error e else .ok a : Except ε α) =
      faultIf broken (failure e) :=
  (faultOf_ite fun _ => rfl).trans Option.or_none

theorem findSome?_cons_eq_or (f : α → Option β) (a : α) (as : List α) :
    (a :: as).findSome? f = (f a).or (as.findSome? f) := by
  rw [List.findSome?_cons]
  cases f a <;> rfl

theorem faultOf_mapError_bind {x : Except ε α} {f : α → Except Failure β}
    {second : Option Failure} (h : ∀ a, x = .ok a → faultOf id (f a) = second) :
    faultOf id (x.mapError failure >>= f) = (faultOf failure x).or second := by
  cases x with
  | ok a => exact h a rfl
  | error e => rfl

/-- The first of some faults. -/
def firstFault? (faults : List (Option Failure)) : Option Failure := faults.findSome? id

theorem firstFault?_cons (fault : Option Failure) (faults : List (Option Failure)) :
    firstFault? (fault :: faults) = fault.or (firstFault? faults) :=
  findSome?_cons_eq_or id fault faults

theorem firstFault?_append (faults later : List (Option Failure)) :
    firstFault? (faults ++ later) = (firstFault? faults).or (firstFault? later) :=
  List.findSome?_append

@[simp] theorem firstFault?_nil : firstFault? [] = none := rfl

end

/-! ## The disk -/

/-- What folders have in them, if they can be listed, and what files hold. -/
structure Disk where
  listing : String → Option (List FolderEntry)
  content : String → Content

/-- What is seen of folders and files in an event is what is on the disk. -/
def Disk.Shows (disk : Disk) : Event → Prop
  | ⟨.list path, answer⟩ => answer = disk.listing path
  | ⟨.read path, answer⟩ => answer = disk.content path
  | _ => True

/-- Whether a request looks at the disk or tells the user something. -/
def Request.IsLocal : Request → Prop
  | .list _ | .read _ | .say _ | .warn _ => True
  | _ => False

theorem Request.IsLocal.isQuiet {r : Request} (h : r.IsLocal) : r.IsQuiet := by
  cases r <;> trivial

namespace Script

variable {α β ε : Type} {disk : Disk} {fault first second : Option Failure} {f : Failure}
  {Q : α → Prop} {R : β → Prop} {s : Script α} {next : α → Script β}

/-- On this disk the script asks for nothing else. It fails with the fault, if there is one, and
ends with a value that satisfies `Q` otherwise. -/
def Finds (disk : Disk) (fault : Option Failure) (Q : α → Prop) : Script α → Prop
  | .done x => fault = none ∧ Q x
  | .fail e => fault = some e
  | .ask r next => r.IsLocal ∧ ∀ a, disk.Shows ⟨r, a⟩ → Finds disk fault Q (next a)

theorem Finds.mono {Q' : α → Prop} (hs : s.Finds disk fault Q) (hQ : ∀ x, Q x → Q' x) :
    s.Finds disk fault Q' := by
  induction s with
  | done x => exact ⟨hs.1, hQ x hs.2⟩
  | fail e => exact hs
  | ask r next ih => exact ⟨hs.1, fun a ha => ih a (hs.2 a ha)⟩

theorem Finds.bind (hs : s.Finds disk first Q)
    (hnext : first = none → ∀ x, Q x → (next x).Finds disk second R) :
    (s >>= next).Finds disk (first.or second) R := by
  induction s with
  | done x =>
    obtain ⟨rfl, hx⟩ := hs
    exact hnext rfl x hx
  | fail e =>
    obtain rfl : first = some e := hs
    exact rfl
  | ask r k ih => exact ⟨hs.1, fun a ha => ih a (hs.2 a ha)⟩

/-- A second stage without faults adds none. -/
theorem Finds.bind_of_none (hs : s.Finds disk fault Q)
    (hnext : ∀ x, Q x → (next x).Finds disk none R) : (s >>= next).Finds disk fault R := by
  have h : (s >>= next).Finds disk (fault.or none) R := hs.bind fun _ => hnext
  rwa [Option.or_none] at h

/-- What fails in its first stage fails. -/
theorem Finds.bind_of_fault (hs : s.Finds disk (some f) Q) :
    (s >>= next).Finds disk (some f) R := by
  have h : (s >>= next).Finds disk ((some f).or none) R := hs.bind nofun
  exact h

theorem finds_done {x : α} (h : Q x) : (done x).Finds disk none Q := ⟨rfl, h⟩

theorem finds_ofExcept {failure : ε → Failure} {x : Except ε α} :
    (ofExcept failure x).Finds disk (faultOf failure x) fun a => x = .ok a := by
  cases x with
  | ok a => exact ⟨rfl, rfl⟩
  | error e => exact rfl

theorem Finds.say_bind {line : String} {next : Unit → Script β} (h : (next ()).Finds disk fault R) :
    (say line >>= next).Finds disk fault R :=
  ⟨trivial, fun _ _ => h⟩

theorem Finds.read_bind {path : String} {next : Content → Script β}
    (h : (next (disk.content path)).Finds disk fault R) :
    (request (.read path) >>= next).Finds disk fault R :=
  ⟨trivial, fun _ ha => ha ▸ h⟩

theorem Finds.list_bind {path : String} {next : Option (List FolderEntry) → Script β}
    (h : (next (disk.listing path)).Finds disk fault R) :
    (request (.list path) >>= next).Finds disk fault R :=
  ⟨trivial, fun _ ha => ha ▸ h⟩

/-- Every run on the disk asks only for what is there, and ends with the fault. -/
theorem Finds.of_runs (hs : s.Finds disk (some f) Q) {es : List Event} {o : Except Failure α}
    (h : s.Runs es o) (hes : ∀ e ∈ es, disk.Shows e) :
    o = .error f ∧ ∀ e ∈ es, e.request.IsLocal := by
  induction h with
  | done x => cases hs.1
  | fail e =>
    cases (show some f = some e from hs)
    exact ⟨rfl, by simp⟩
  | ask h ih =>
    rw [List.forall_mem_cons] at hes
    obtain ⟨ho, hlocal⟩ := ih (hs.2 _ hes.1) hes.2
    exact ⟨ho, List.forall_mem_cons.2 ⟨hs.1, hlocal⟩⟩

/-- There is a run on the disk. -/
theorem Finds.exists_runs (hs : s.Finds disk fault Q) :
    ∃ es o, s.Runs es o ∧ ∀ e ∈ es, disk.Shows e := by
  induction s with
  | done x => exact ⟨[], _, .done x, by simp⟩
  | fail e => exact ⟨[], _, .fail e, by simp⟩
  | ask r next ih =>
    -- The answer is on the disk, or the user is only told something.
    have hanswer : ∃ a, disk.Shows ⟨r, a⟩ := by
      cases r with
      | list path => exact ⟨disk.listing path, rfl⟩
      | read path => exact ⟨disk.content path, rfl⟩
      | say line => exact ⟨(), trivial⟩
      | warn text => exact ⟨(), trivial⟩
      | _ => exact hs.1.elim
    obtain ⟨a, ha⟩ := hanswer
    obtain ⟨es, o, hrun, hes⟩ := ih a (hs.2 a ha)
    exact ⟨_, o, .ask hrun, List.forall_mem_cons.2 ⟨ha, hes⟩⟩

end Script

end CandyDrop
