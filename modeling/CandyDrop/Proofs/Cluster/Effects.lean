import CandyDrop.Deploy.Collection
import CandyDrop.Deploy.Create
import CandyDrop.Proofs.Borsh.RoundTrip
import CandyDrop.Upload.Lines

/-!
# What transactions do

The candy machine program goes by the first eight bytes of an instruction, its accounts and its
arguments. This module reads three of its calls: those that set up a machine
(`Instruction.createdMachine?`), write lines (`Instruction.lineCall?`) and set a collection
(`Instruction.collectionCall?`), and says what a list of accepted transactions leaves on the
cluster: the machines that were created (`Created`), what is stored at each position of a machine
(`stored?`) and the collection that was set last (`collection?`).

The transactions of this library are what they are meant to be (`lineCalls_creation` and the
lemmas after it), because the names of the calls have different hashes (`discriminator_ne`).
-/

namespace CandyDrop

/-! ## Reading instructions -/

/-- A call that writes lines: the machine, the first position, and names with links. -/
structure LineCall where
  machine : Address
  start : Nat
  lines : List (String × String)
  deriving DecidableEq

namespace LineCall

/-- The positions with what is written there: the `k`th line goes to the `k`th position from the
first one on. -/
def entriesFrom : (start : Nat) → List (String × String) → List (Nat × String × String)
  | _, [] => []
  | start, l :: ls => (start, l) :: entriesFrom (start + 1) ls

/-- The positions that a call writes, and what it writes there. -/
def entries (c : LineCall) : List (Nat × String × String) := entriesFrom c.start c.lines

/-- The bytes that the lines of a call are counted as. -/
def size (c : LineCall) : Nat :=
  (c.lines.map fun l => 8 + Bytes.sizeOfText l.1 + Bytes.sizeOfText l.2).sum

end LineCall

namespace Instruction

/-- The arguments of a call of the candy machine program of this name. -/
def arguments? (name : String) (i : Instruction) : Option Bytes :=
  if i.program = Address.candyMachineProgram ∧ i.data.take 8 = discriminator "global" name then
    some (i.data.drop 8)
  else none

/-- The arguments of a call that writes lines. -/
def lineArguments : Borsh.Decoder (Nat × List (String × String)) := do
  let start ← Borsh.Decoder.u32
  let lines ← Borsh.Decoder.list do
    let name ← Borsh.Decoder.text
    let link ← Borsh.Decoder.text
    return (name, link)
  return (start, lines)

/-- The lines that an instruction writes. -/
def lineCall? (i : Instruction) : Option LineCall := do
  let arguments ← i.arguments? "add_config_lines"
  let ((start, lines), _) ← lineArguments arguments
  let machine ← i.accounts[0]?
  return ⟨machine.address, start, lines⟩

/-- The machine that an instruction sets up. -/
def createdMachine? (i : Instruction) : Option Address := do
  let _ ← i.arguments? "initialize_candy_machine"
  let machine ← i.accounts[0]?
  return machine.address

/-- The machine whose collection an instruction sets, and the token that stands for it. -/
def collectionCall? (i : Instruction) : Option (Address × Address) := do
  let _ ← i.arguments? "set_collection"
  let machine ← i.accounts[0]?
  let mint ← i.accounts[7]?
  return (machine.address, mint.address)

end Instruction

namespace Transaction

def lineCalls (t : Transaction) : List LineCall := t.instructions.filterMap Instruction.lineCall?

def createdMachines (t : Transaction) : List Address :=
  t.instructions.filterMap Instruction.createdMachine?

def collectionCalls (t : Transaction) : List (Address × Address) :=
  t.instructions.filterMap Instruction.collectionCall?

end Transaction

/-! ## What accepted transactions leave -/

namespace Accepted

/-- The machine was set up by one of the transactions. -/
def Created (ts : List Transaction) (machine : Address) : Prop :=
  ∃ t ∈ ts, machine ∈ t.createdMachines

instance (ts : List Transaction) (machine : Address) : Decidable (Created ts machine) :=
  inferInstanceAs (Decidable (∃ t ∈ ts, _))

/-- What transactions write to a machine, in order: positions with names and links. -/
def entries (machine : Address) (ts : List Transaction) : List (Nat × String × String) :=
  ((ts.flatMap Transaction.lineCalls).filter (·.machine = machine)).flatMap LineCall.entries

/-- What was stored last at a position of a machine. -/
def stored? (ts : List Transaction) (machine : Address) (position : Nat) :
    Option (String × String) :=
  (((entries machine ts).filter (·.1 = position)).getLast?).map (·.2)

/-- The token that was set last as the collection of a machine. -/
def collection? (ts : List Transaction) (machine : Address) : Option Address :=
  (((ts.flatMap Transaction.collectionCalls).filter (·.1 = machine)).getLast?).map (·.2)

variable {ts us : List Transaction} {machine mint : Address} {i : Nat}

theorem Created.append_right (h : Created ts machine) : Created (ts ++ us) machine := by
  obtain ⟨t, ht, hm⟩ := h
  exact ⟨t, List.mem_append_left _ ht, hm⟩

theorem entries_append (machine : Address) (ts us : List Transaction) :
    entries machine (ts ++ us) = entries machine ts ++ entries machine us := by
  simp [entries]

theorem entries_eq_nil (h : ∀ t ∈ ts, t.lineCalls = []) : entries machine ts = [] := by
  simp [entries, List.flatMap_eq_nil_iff.2 h]

/-- What is stored at a position stays if nothing more is written there. -/
theorem stored?_append_of_forall_ne (h : ∀ e ∈ entries machine us, e.1 ≠ i) :
    stored? (ts ++ us) machine i = stored? ts machine i := by
  have hnil : (entries machine us).filter (·.1 = i) = [] :=
    List.filter_eq_nil_iff.2 fun e he => by simpa using h e he
  rw [stored?, entries_append, List.filter_append, hnil, List.append_nil, stored?]

/-- What is written once at a position is stored there. -/
theorem stored?_append_of_mem {name link : String}
    (hnodup : ((entries machine us).map (·.1)).Nodup) (h : (i, name, link) ∈ entries machine us) :
    stored? (ts ++ us) machine i = some (name, link) := by
  have hfilter : (entries machine us).filter (·.1 = i) = [(i, name, link)] := by
    generalize entries machine us = es at hnodup h
    induction es with
    | nil => cases h
    | cons e es ih =>
      rw [List.map_cons, List.nodup_cons] at hnodup
      obtain rfl | h := List.mem_cons.1 h
      · have hrest : es.filter (·.1 = i) = [] := by
          refine List.filter_eq_nil_iff.2 fun e he hi => hnodup.1 ?_
          exact List.mem_map.2 ⟨e, he, by simpa using hi⟩
        simp [hrest]
      · have hne : e.1 ≠ i := by
          rintro rfl
          exact hnodup.1 (List.mem_map.2 ⟨_, h, rfl⟩)
        simp [hne, ih hnodup.2 h]
  rw [stored?, entries_append, List.filter_append, hfilter, List.getLast?_append]
  rfl

theorem collection?_append_of_forall_nil (h : ∀ t ∈ us, t.collectionCalls = []) :
    collection? (ts ++ us) machine = collection? ts machine := by
  rw [collection?, List.flatMap_append, List.flatMap_eq_nil_iff.2 h, List.append_nil, collection?]

end Accepted

/-! ## The transactions of this library -/

@[simp] theorem length_discriminator (scope name : String) :
    (discriminator scope name).length = 8 := by
  simp [discriminator]

/-- The names of the three calls have different hashes. -/
theorem discriminator_ne :
    discriminator "global" "add_config_lines" ≠ discriminator "global" "initialize_candy_machine" ∧
    discriminator "global" "add_config_lines" ≠ discriminator "global" "set_collection" ∧
    discriminator "global" "initialize_candy_machine"
      ≠ discriminator "global" "set_collection" := by
  decide +kernel

namespace Instruction

theorem arguments?_machineCall (name call : String) (accounts : List AccountUse)
    (arguments : Bytes) :
    (machineCall call accounts arguments).arguments? name =
      if discriminator "global" call = discriminator "global" name then some arguments
      else none := by
  have htake : (discriminator "global" call ++ arguments).take 8 = discriminator "global" call :=
    List.take_left' (length_discriminator ..)
  have hdrop : (discriminator "global" call ++ arguments).drop 8 = arguments :=
    List.drop_left' (length_discriminator ..)
  simp [arguments?, machineCall, htake, hdrop]

theorem arguments?_machineCall_self (name : String) (accounts : List AccountUse)
    (arguments : Bytes) :
    (machineCall name accounts arguments).arguments? name = some arguments := by
  rw [arguments?_machineCall, if_pos rfl]

theorem arguments?_machineCall_of_ne {name call : String}
    (h : discriminator "global" call ≠ discriminator "global" name) (accounts : List AccountUse)
    (arguments : Bytes) : (machineCall call accounts arguments).arguments? name = none := by
  rw [arguments?_machineCall, if_neg h]

theorem arguments?_of_program {i : Instruction} (name : String)
    (h : i.program ≠ Address.candyMachineProgram) : i.arguments? name = none :=
  if_neg fun hi => h hi.1

theorem arguments?_createAccount (name : String) (payer account owner : Address)
    (lamports space : UInt64) :
    (createAccount payer account lamports space owner).arguments? name = none :=
  arguments?_of_program name (show Address.systemProgram ≠ _ by decide)

theorem takes_lineArguments (start : UInt32) {lines : List ConfigLine}
    (hlen : lines.length < 2 ^ 32)
    (hsize : ∀ l ∈ lines, Bytes.sizeOfText l.name < 2 ^ 32 ∧ Bytes.sizeOfText l.uri < 2 ^ 32) :
    lineArguments.Takes (Borsh.u32 start.toNat ++ Borsh.list lineBytes lines)
      (start.toNat, lines.map fun l => (l.name, l.uri)) := by
  refine (Borsh.Decoder.takes_u32 start.toNat_lt).bind ?_
  rw [← List.append_nil (Borsh.list lineBytes lines)]
  refine Borsh.Decoder.Takes.bind (Borsh.Decoder.takes_list hlen fun l hl => ?_)
    (Borsh.Decoder.takes_pure _)
  refine (Borsh.Decoder.takes_text (hsize l hl).1).bind ?_
  rw [← List.append_nil (Borsh.text l.uri)]
  exact (Borsh.Decoder.takes_text (hsize l hl).2).bind (Borsh.Decoder.takes_pure _)

theorem lineCall?_addConfigLines {machine payer : Address} {start : UInt32}
    {lines : List ConfigLine} (hlen : lines.length < 2 ^ 32)
    (hsize : ∀ l ∈ lines, Bytes.sizeOfText l.name < 2 ^ 32 ∧ Bytes.sizeOfText l.uri < 2 ^ 32) :
    (addConfigLines machine payer start lines).lineCall? =
      some ⟨machine, start.toNat, lines.map fun l => (l.name, l.uri)⟩ := by
  have htakes := takes_lineArguments start hlen hsize []
  rw [List.append_nil] at htakes
  rw [lineCall?, addConfigLines, arguments?_machineCall_self]
  simp only [Option.bind_eq_bind, Option.bind_some, htakes]
  rfl

end Instruction

namespace Machine

variable (payer machine : Address) (settings : Settings) (data : MachineData)
  (space lamports : UInt64)

theorem createdMachines_creation :
    (creation payer machine settings data space lamports).createdMachines = [machine] := by
  have hcreate : (Instruction.createAccount payer machine lamports space
      Address.candyMachineProgram).createdMachine? = none := by
    rw [Instruction.createdMachine?, Instruction.arguments?_createAccount]
    rfl
  have hsetup : (Instruction.initializeMachine machine settings.wallet payer settings.tokenMint
      data).createdMachine? = some machine := by
    rw [Instruction.createdMachine?, Instruction.initializeMachine,
      Instruction.arguments?_machineCall_self]
    rfl
  rw [Transaction.createdMachines, creation, List.filterMap_cons_none hcreate,
    List.filterMap_cons_some hsetup, List.filterMap_nil]

theorem lineCalls_creation :
    (creation payer machine settings data space lamports).lineCalls = [] := by
  simp [creation, Transaction.lineCalls, Instruction.lineCall?,
    Instruction.arguments?_createAccount, Instruction.initializeMachine,
    Instruction.arguments?_machineCall_of_ne discriminator_ne.1.symm]

theorem collectionCalls_creation :
    (creation payer machine settings data space lamports).collectionCalls = [] := by
  simp [creation, Transaction.collectionCalls, Instruction.collectionCall?,
    Instruction.arguments?_createAccount, Instruction.initializeMachine,
    Instruction.arguments?_machineCall_of_ne discriminator_ne.2.2]

end Machine

namespace CollectionMint

variable (payer machine mint : Address)

/-- The transaction that makes a token the collection of a machine. -/
def setting : Transaction := ⟨[Instruction.setCollection machine payer mint], []⟩

theorem collectionCalls_setting :
    (setting payer machine mint).collectionCalls = [(machine, mint)] := by
  have h : (Instruction.setCollection machine payer mint).collectionCall? =
      some (machine, mint) := by
    rw [Instruction.collectionCall?, Instruction.setCollection,
      Instruction.arguments?_machineCall_self]
    rfl
  rw [Transaction.collectionCalls, setting, List.filterMap_cons_some h, List.filterMap_nil]

/-- The collection that is set last is the one that a machine has. -/
theorem collection?_append_setting (ts : List Transaction) :
    Accepted.collection? (ts ++ [setting payer machine mint]) machine = some mint := by
  rw [Accepted.collection?, List.flatMap_append, List.flatMap_singleton, collectionCalls_setting,
    List.filter_append, List.getLast?_append]
  simp

theorem lineCalls_setting : (setting payer machine mint).lineCalls = [] := by
  simp [setting, Transaction.lineCalls, Instruction.lineCall?, Instruction.setCollection,
    Instruction.arguments?_machineCall_of_ne discriminator_ne.2.1.symm]

theorem createdMachines_setting : (setting payer machine mint).createdMachines = [] := by
  simp [setting, Transaction.createdMachines, Instruction.createdMachine?,
    Instruction.setCollection, Instruction.arguments?_machineCall_of_ne discriminator_ne.2.2.symm]

end CollectionMint

namespace Batch

variable {payer machine : Address} {batch : Batch} {t : Transaction}

/-- The lines of a batch can be read back from its transaction. -/
def Readable (batch : Batch) : Prop :=
  batch.length < 2 ^ 32 ∧
    ∀ l ∈ batch, Bytes.sizeOfText l.name < 2 ^ 32 ∧ Bytes.sizeOfText l.uri < 2 ^ 32

theorem transaction?_eq_some_iff :
    transaction? payer machine batch = some t ↔ ∃ l ls, batch = l :: ls ∧
      t = ⟨[Instruction.addConfigLines machine payer l.index (l :: ls)], []⟩ := by
  cases batch with
  | nil => simp [transaction?]
  | cons l ls =>
    simp only [transaction?, Option.some.injEq, List.cons.injEq]
    constructor
    · rintro rfl
      exact ⟨l, ls, ⟨rfl, rfl⟩, rfl⟩
    · rintro ⟨_, _, ⟨rfl, rfl⟩, rfl⟩
      rfl

theorem lineCalls_transaction {l : ConfigLine} {ls : List ConfigLine}
    (hread : Readable (l :: ls)) (ht : transaction? payer machine (l :: ls) = some t) :
    t.lineCalls = [⟨machine, l.index.toNat, (l :: ls).map fun l => (l.name, l.uri)⟩] := by
  obtain ⟨_, _, h, rfl⟩ := transaction?_eq_some_iff.1 ht
  cases h
  rw [Transaction.lineCalls, List.filterMap_cons_some
    (Instruction.lineCall?_addConfigLines hread.1 hread.2), List.filterMap_nil]

theorem createdMachines_transaction (ht : transaction? payer machine batch = some t) :
    t.createdMachines = [] := by
  obtain ⟨l, ls, rfl, rfl⟩ := transaction?_eq_some_iff.1 ht
  simp [Transaction.createdMachines, Instruction.createdMachine?, Instruction.addConfigLines,
    Instruction.arguments?_machineCall_of_ne discriminator_ne.1]

theorem collectionCalls_transaction (ht : transaction? payer machine batch = some t) :
    t.collectionCalls = [] := by
  obtain ⟨l, ls, rfl, rfl⟩ := transaction?_eq_some_iff.1 ht
  simp [Transaction.collectionCalls, Instruction.collectionCall?, Instruction.addConfigLines,
    Instruction.arguments?_machineCall_of_ne discriminator_ne.2.1]

end Batch

end CandyDrop
