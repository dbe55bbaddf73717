import CandyDrop.Address.Known
import CandyDrop.Proofs.Address.RoundTrip
import CandyDrop.Proofs.Checks.Details

/-!
# Within and beyond the limits of a collection

The details of a collection are accepted if and only if they are within all limits
(`CollectionDetails.Within`). How each limit can be broken, and with which fault, is stated for it
alone (`CollectionDetails.excesses`); details that break several limits are refused for the first
one in their order, and of several creators for the first one without an address (`First`). What is
accepted is what was given (`CollectionDetails.check_settled`).
-/

namespace CandyDrop

theorem except_bind_pure_eq_error_iff {α β ε : Type} {x : Except ε α} {f : α → β} {e : ε} :
    (x >>= fun a => pure (f a)) = .error e ↔ x = .error e := by
  cases x with
  | ok a => exact iff_of_false (fun h => by cases h) fun h => by cases h
  | error e' =>
    constructor
    · rintro ⟨⟩
      rfl
    · rintro ⟨⟩
      rfl

/-! ## The first of several faults -/

/-- Of the faults that can be found one after another, this one is found and none before it. -/
inductive First {ε : Type} : List (ε → Prop) → ε → Prop
  | here {p : ε → Prop} {ps : List (ε → Prop)} {e : ε} (h : p e) : First (p :: ps) e
  | later {p : ε → Prop} {ps : List (ε → Prop)} {e : ε} (hnone : ∀ e, ¬p e) (h : First ps e) :
    First (p :: ps) e

namespace First

variable {α β ε : Type} {p : ε → Prop} {ps : List (ε → Prop)} {e : ε}

theorem cons_iff_of_none (hnone : ∀ e, ¬p e) : First (p :: ps) e ↔ First ps e := by
  constructor
  · intro h
    cases h with
    | here h => exact absurd h (hnone e)
    | later _ h => exact h
  · exact later hnone

theorem cons_iff_of_some {f : ε} (hfound : p f) : First (p :: ps) e ↔ p e := by
  constructor
  · intro h
    cases h with
    | here h => exact h
    | later hnone _ => exact absurd hfound (hnone f)
  · exact here

/-- There is a first fault unless none is found. -/
theorem forall_not_iff : (∀ e, ¬First ps e) ↔ ∀ p ∈ ps, ∀ e, ¬p e := by
  induction ps with
  | nil => exact iff_of_true (fun _ h => by cases h) fun _ h => by cases h
  | cons p ps ih =>
    rw [List.forall_mem_cons, ← ih]
    constructor
    · intro h
      have hnone : ∀ e, ¬p e := fun e hp => h e (here hp)
      exact ⟨hnone, fun e hps => h e (later hnone hps)⟩
    · rintro ⟨hnone, hps⟩ e h
      exact hps e ((cons_iff_of_none hnone).1 h)

/-- A check that goes on if it finds nothing. -/
theorem bind_eq_error_iff {x : Except ε α} {f : α → Except ε β} (hx : ∀ e, x = .error e ↔ p e)
    (hf : ∀ a, x = .ok a → ∀ e, f a = .error e ↔ First ps e) (e : ε) :
    x >>= f = .error e ↔ First (p :: ps) e := by
  cases x with
  | ok a =>
    have hnone : ∀ e, ¬p e := by
      intro e he
      cases (hx e).2 he
    exact (hf a rfl e).trans (cons_iff_of_none hnone).symm
  | error found =>
    have hfound : p found := (hx found).1 rfl
    rw [cons_iff_of_some hfound, ← hx, except_bind_eq_error_iff]
    refine or_iff_left ?_
    rintro ⟨_, h, -⟩
    cases h

/-- The last check, after which nothing can go wrong. -/
theorem bind_pure_eq_error_iff {x : Except ε α} {f : α → β} (hx : ∀ e, x = .error e ↔ p e)
    (e : ε) : (x >>= fun a => pure (f a)) = .error e ↔ First [p] e := by
  refine bind_eq_error_iff hx (fun a _ e => ?_) e
  exact iff_of_false (fun h => by cases h) fun h => by cases h

/-- A check of one limit. -/
theorem unless_eq_error_iff {within broken : Prop} [Decidable within] {a : α} {fault : ε}
    (h : ¬within ↔ broken) (e : ε) :
    (if within then .ok a else .error fault : Except ε α) = .error e ↔ broken ∧ e = fault := by
  rw [← h]
  by_cases hwithin : within
  · rw [if_pos hwithin]
    exact iff_of_false (fun h => by cases h) fun h => h.1 hwithin
  · rw [if_neg hwithin, Except.error.injEq, eq_comm]
    exact (and_iff_right hwithin).symm

/-- A limit that ends the checks when it is broken. -/
theorem ite_eq_error_iff {broken : Prop} [Decidable broken] {fault : ε} {x : Except ε α}
    (hx : ¬broken → ∀ e, x = .error e ↔ First ps e) (e : ε) :
    (if broken then .error fault else x) = .error e ↔
      First ((fun e => broken ∧ e = fault) :: ps) e := by
  by_cases h : broken
  · rw [if_pos h, cons_iff_of_some (f := fault) ⟨h, rfl⟩, Except.error.injEq, eq_comm]
    exact (and_iff_right h).symm
  · rw [if_neg h, cons_iff_of_none fun e he => h he.1]
    exact hx h e

end First

/-! ## Creators -/

namespace Config.Creator

/-- The address of a creator is written out. -/
def Names (c : Config.Creator) (a : Address) : Prop :=
  ∃ text, c.address = some text ∧ Base58.IsForm text a.bytes

/-- What can be wrong with the address of a creator. -/
inductive AddressFault (c : Config.Creator) : CheckFault → Prop
  | missing (h : c.address = none) : AddressFault c .missingCreatorAddress
  | invalid {text : String} (h : c.address = some text)
      (hform : ∀ a : Address, ¬Base58.IsForm text a.bytes) :
    AddressFault c (.invalidCreatorAddress text)

end Config.Creator

namespace Checks

variable {c : Config.Creator} {cs : List Config.Creator} {a : Address}

theorem address_eq_ok_iff_names : address c = .ok a ↔ c.Names a := by
  simp only [address_eq_ok_iff, Address.ofText?_eq_some_iff, Config.Creator.Names]

theorem address_eq_error_iff (fault : CheckFault) :
    address c = .error fault ↔ c.AddressFault fault := by
  unfold address
  split
  · next hnone =>
    constructor
    · rintro ⟨⟩
      exact .missing hnone
    · rintro (_ | ⟨hsome, -⟩)
      · rfl
      · rw [hnone] at hsome
        cases hsome
  · next text hsome =>
    split
    · next b hb =>
      constructor
      · rintro ⟨⟩
      · rintro (hnone | ⟨hsome', hform⟩)
        · rw [hsome] at hnone
          cases hnone
        · rw [hsome] at hsome'
          cases hsome'
          exact absurd (Address.ofText?_eq_some_iff.1 hb) (hform b)
    · next hb =>
      constructor
      · rintro ⟨⟩
        exact .invalid hsome (Address.ofText?_eq_none_iff.1 hb)
      · rintro (hnone | ⟨hsome', -⟩)
        · rw [hsome] at hnone
          cases hnone
        · rw [hsome] at hsome'
          cases hsome'
          rfl

theorem forall_not_addressFault_iff : (∀ fault, ¬c.AddressFault fault) ↔ ∃ a, c.Names a := by
  simp only [← address_eq_error_iff, ← address_eq_ok_iff_names]
  cases address c with
  | ok a => exact iff_of_true (fun _ h => by cases h) ⟨a, rfl⟩
  | error fault =>
    refine iff_of_false (fun h => h fault rfl) ?_
    rintro ⟨_, h⟩
    cases h

/-- The addresses fail with the first one that is missing or invalid. -/
theorem addresses_eq_error_iff (fault : CheckFault) :
    addresses cs = .error fault ↔ First (cs.map Config.Creator.AddressFault) fault := by
  induction cs generalizing fault with
  | nil => exact iff_of_false (fun h => by cases h) fun h => by cases h
  | cons c cs ih =>
    refine First.bind_eq_error_iff address_eq_error_iff (fun a _ fault => ?_) fault
    rw [← ih]
    exact except_bind_pure_eq_error_iff

theorem foldl_share (n : Nat) :
    cs.foldl (fun n c => n + c.share.toNat) n = n + (cs.map fun c => c.share.toNat).sum := by
  induction cs generalizing n with
  | nil => rfl
  | cons c cs ih => simp only [List.foldl_cons, ih, List.map_cons, List.sum_cons, Nat.add_assoc]

end Checks

/-! ## Details -/

namespace CollectionDetails

variable (symbol : String) (fee : UInt16) (cs : List Config.Creator)

/-- Details that are within all limits. -/
structure Within : Prop where
  symbol : Bytes.sizeOfText symbol ≤ 10
  sellerFee : fee.toNat ≤ 10000
  creators : 1 ≤ cs.length ∧ cs.length ≤ 4
  addresses : ∀ c ∈ cs, ∃ a : Address, c.Names a
  shares : (cs.map fun c => c.share.toNat).sum = 100

/-- How the creators can be beyond their limits, in the order in which this is found. -/
def creatorExcesses : List (CheckFault → Prop) :=
  [fun fault => cs = [] ∧ fault = .noCreators,
   fun fault => 4 < cs.length ∧ fault = .tooManyCreators cs.length 4,
   First (cs.map Config.Creator.AddressFault),
   fun fault => (cs.map fun c => c.share.toNat).sum ≠ 100 ∧ fault = .creatorShares]

/-- How details can be beyond the limits, in the order in which this is found. -/
def excesses : List (CheckFault → Prop) :=
  (fun fault => 10 < Bytes.sizeOfText symbol ∧ fault = .symbolTooLong) ::
  (fun fault => 10000 < fee.toNat ∧ fault = .sellerFee fee) ::
  creatorExcesses cs

variable {symbol fee cs}

theorem creators_eq_error_iff (fault : CheckFault) :
    Checks.creators cs = .error fault ↔ First (creatorExcesses cs) fault := by
  have hempty : cs.isEmpty = true ↔ cs = [] := List.isEmpty_iff
  unfold Checks.creators
  simp only [hempty]
  refine First.ite_eq_error_iff (fun _ => First.ite_eq_error_iff fun _ =>
    First.bind_eq_error_iff Checks.addresses_eq_error_iff fun as _ =>
      First.bind_pure_eq_error_iff (First.unless_eq_error_iff ?_)) fault
  rw [Checks.foldl_share, Nat.zero_add]

theorem check_eq_error_iff (fault : CheckFault) :
    check symbol fee cs = .error fault ↔ First (excesses symbol fee cs) fault := by
  refine First.bind_eq_error_iff (First.unless_eq_error_iff Nat.not_le) (fun _ _ =>
    First.bind_eq_error_iff (First.unless_eq_error_iff Nat.not_le) fun _ _ fault => ?_) fault
  exact except_bind_pure_eq_error_iff.trans (creators_eq_error_iff fault)

/-- Details are within the limits if none of them is exceeded. -/
theorem within_iff : Within symbol fee cs ↔ ∀ p ∈ excesses symbol fee cs, ∀ fault, ¬p fault := by
  have haddresses : (∀ fault, ¬First (cs.map Config.Creator.AddressFault) fault) ↔
      ∀ c ∈ cs, ∃ a : Address, c.Names a := by
    rw [First.forall_not_iff, List.forall_mem_map]
    exact forall₂_congr fun c _ => Checks.forall_not_addressFault_iff
  have hlimit : ∀ {broken : Prop} {fault : CheckFault},
      (∀ f, ¬(broken ∧ f = fault)) ↔ ¬broken := fun {broken fault} =>
    ⟨fun h hbroken => h fault ⟨hbroken, rfl⟩, fun h _ hf => h hf.1⟩
  simp only [excesses, creatorExcesses, List.forall_mem_cons, haddresses, hlimit, Nat.not_lt,
    Decidable.not_not, ne_eq, List.not_mem_nil, IsEmpty.forall_iff, implies_true, and_true]
  constructor
  · rintro ⟨hsymbol, hfee, ⟨hone, hfour⟩, hcreators, hshares⟩
    exact ⟨hsymbol, hfee, List.ne_nil_of_length_pos hone, hfour, hcreators, hshares⟩
  · rintro ⟨hsymbol, hfee, hne, hfour, hcreators, hshares⟩
    exact ⟨hsymbol, hfee, ⟨List.length_pos_iff.2 hne, hfour⟩, hcreators, hshares⟩

/-- **Details are settled by their limits.** They are accepted if and only if they are within all of
them: a symbol of at most 10 bytes, a fee of at most 10000 basis points, one to four creators, each
with the base 58 form of an address, and shares that are 100 together. What is accepted is what was
given. Otherwise they are refused for the first limit in this order that they are beyond. -/
theorem check_settled (symbol : String) (fee : UInt16) (cs : List Config.Creator) :
    ((∃ details, check symbol fee cs = .ok details) ↔ Within symbol fee cs) ∧
      (∀ details, check symbol fee cs = .ok details →
        details.symbol = symbol ∧ details.sellerFeeBasisPoints = fee ∧
          List.Forall₂ (fun given c => given.Names c.address ∧ c.share = given.share ∧
            c.verified = false) cs details.creators) ∧
      ∀ fault, check symbol fee cs = .error fault ↔ First (excesses symbol fee cs) fault := by
  refine ⟨?_, fun details h => ?_, check_eq_error_iff⟩
  · rw [within_iff, ← First.forall_not_iff]
    simp only [← check_eq_error_iff]
    cases check symbol fee cs with
    | ok details => exact iff_of_true ⟨details, rfl⟩ fun _ h => by cases h
    | error fault =>
      refine iff_of_false ?_ fun h => h fault rfl
      rintro ⟨_, h⟩
      cases h
  · obtain ⟨hsymbol, hfee, hcreators⟩ := given_of_check h
    refine ⟨hsymbol, hfee, hcreators.imp fun given c hc => ⟨?_, hc.share, hc.verified⟩⟩
    exact Checks.address_eq_ok_iff_names.1 (Checks.address_eq_ok_iff.2 hc.address)

/-- Two creators with these shares. -/
def pair (first second : UInt8) : List Config.Creator :=
  [⟨some (Address.text .systemProgram), first⟩, ⟨some (Address.text .systemProgram), second⟩]

/-- Shares count as integers: 200 and 156, which are 100 together in eight bits, are refused. A fee
that is too high counts before them. -/
theorem check_settled_pair :
    (∃ details, check "S" 10000 (pair 60 40) = .ok details ∧ details.creators.length = 2) ∧
      check "S" 0 (pair 200 156) = .error .creatorShares ∧
      check "S" 10001 (pair 200 156) = .error (.sellerFee 10001) := by
  have hnames : ∀ first second, ∀ c ∈ pair first second, ∃ a : Address, c.Names a := by
    intro first second c hc
    refine ⟨.systemProgram, Address.text .systemProgram, ?_, Address.isForm_text _⟩
    simp only [pair, List.mem_cons, List.not_mem_nil, or_false] at hc
    obtain rfl | rfl := hc <;> rfl
  have hsymbol : ∀ fault, ¬(10 < Bytes.sizeOfText "S" ∧ fault = CheckFault.symbolTooLong) :=
    fun _ h => absurd h.1 (by decide)
  refine ⟨?_, ((check_settled "S" 0 (pair 200 156)).2.2 _).2 ?_,
    ((check_settled "S" 10001 (pair 200 156)).2.2 _).2 ?_⟩
  · obtain ⟨details, hdetails⟩ := (check_settled "S" 10000 (pair 60 40)).1.2
      ⟨by decide, by decide, by decide, hnames 60 40, by decide⟩
    obtain ⟨-, -, hcreators⟩ := (check_settled "S" 10000 (pair 60 40)).2.1 details hdetails
    exact ⟨details, hdetails, hcreators.length_eq.symm⟩
  · have haddresses := First.forall_not_iff.2 (List.forall_mem_map.2 fun c hc =>
      Checks.forall_not_addressFault_iff.2 (hnames 200 156 c hc))
    refine .later hsymbol (.later (fun _ h => absurd h.1 (by decide)) ?_)
    exact .later (fun _ h => by cases h.1) (.later (fun _ h => absurd h.1 (by decide))
      (.later haddresses (.here ⟨by decide, rfl⟩)))
  · exact .later hsymbol (.here ⟨by decide, rfl⟩)

end CollectionDetails

end CandyDrop
