import CandyDrop.Address.Known
import CandyDrop.Proofs.Address.RoundTrip
import CandyDrop.Proofs.Cache.FixedPoint

/-!
# The machine of a record

A record names its machine by the base 58 form of the address, and by the first six characters of
this form (`CacheProgram.Names`). Of the texts that a record can have in this place, the form of an
address stands for that address, no text at all for no machine, and everything else is a fault
(`Cache.machine_eq_some_iff`, `Cache.machine_eq_error_iff`). So the record that is made for a machine
still names it when it has been written and loaded (`Cache.machine_survives`).
-/

namespace CandyDrop

/-- What a record has to say of a machine: the form of its address, of 32 to 44 characters, and the
first six of them, which are single bytes. -/
structure CacheProgram.Names (p : CacheProgram) (k : Address) : Prop where
  isForm : Base58.IsForm p.candyMachine k.bytes
  length : 32 ≤ p.candyMachine.length ∧ p.candyMachine.length ≤ 44
  uuid : ∃ rest, p.candyMachine = p.uuid ++ rest
  length_uuid : p.uuid.length = 6 ∧ Bytes.sizeOfText p.uuid = 6

namespace CacheProgram

theorem names_ofMachine (k : Address) : (ofMachine k).Names k where
  isForm := k.isForm_text
  length := by
    rw [← String.length_toList]
    exact k.length_text
  uuid := by
    refine ⟨String.ofList (k.text.toList.drop 6), ?_⟩
    rw [ofMachine, Address.shortName, ← String.ofList_append, List.take_append_drop,
      String.ofList_toList]
  length_uuid := by
    refine ⟨?_, k.sizeOfText_shortName⟩
    have hlength := k.length_text.1
    rw [ofMachine, Address.shortName, String.length_ofList, List.length_take]
    omega

end CacheProgram

namespace Cache

variable {c : Cache} {k : Address} {fault : CacheFault}

/-- A record has a machine if its text is the form of an address, which is then the machine. -/
theorem machine_eq_some_iff :
    c.machine = .ok (some k) ↔ Base58.IsForm c.program.candyMachine k.bytes := by
  rw [← Address.ofText?_eq_some_iff]
  unfold machine
  split
  · next hempty =>
    have hnone : Address.ofText? "" = none := by decide +kernel
    rw [hempty, hnone]
    exact iff_of_false (fun h => by cases h) fun h => by cases h
  · split
    · next a ha => rw [ha, Except.ok.injEq]
    · next hnone =>
      rw [hnone]
      exact iff_of_false (fun h => by cases h) fun h => by cases h

/-- The machine of a record is at fault if there is a text that is the form of no address. -/
theorem machine_eq_error_iff :
    c.machine = .error fault ↔ c.program.candyMachine ≠ "" ∧
      (∀ a : Address, ¬Base58.IsForm c.program.candyMachine a.bytes) ∧
      fault = .invalidMachine c.program.candyMachine := by
  rw [← Address.ofText?_eq_none_iff]
  unfold machine
  split
  · next hempty => exact iff_of_false (fun h => by cases h) fun h => h.1 hempty
  · next hne =>
    split
    · next a ha =>
      rw [ha]
      exact iff_of_false (fun h => by cases h) fun h => by cases h.2.1
    · next hnone => rw [Except.error.injEq, eq_comm, hnone, and_iff_right hne, and_iff_right rfl]

/-- **The machine of a record survives its file.** Let a record be made for a machine. Written and
loaded, it still names this machine: by the form of its address, which has from 32 to 44 characters,
and by the first six of them. Whatever else stands in the place of this form, a text names a machine
if and only if it is the form of its address, and is a fault if it is the form of no address; so
different texts name different machines. -/
theorem machine_survives (k : Address) (c : Cache) (folder env name : String) (create : Bool) :
    (∃ (text : String) (loaded : Cache), Writes { c with program := .ofMachine k } text ∧
      (∀ other : Cache, other.LoadsFrom folder env name create (Bytes.ofText text) ↔
        other = loaded) ∧
      loaded.program = .ofMachine k ∧ loaded.program.Names k ∧ loaded.machine = .ok (some k)) ∧
    (∀ text, Base58.IsForm text k.bytes ↔ text = (CacheProgram.ofMachine k).candyMachine) ∧
    (c.program.candyMachine ≠ "" →
      (c.machine = .ok (some k) ↔ Base58.IsForm c.program.candyMachine k.bytes) ∧
      ((∀ a : Address, ¬Base58.IsForm c.program.candyMachine a.bytes) →
        c.machine = .error (.invalidMachine c.program.candyMachine))) ∧
    ∀ d : Cache, c.machine = .ok (some k) → d.machine = .ok (some k) →
      c.program.candyMachine = d.program.candyMachine := by
  have hnames := CacheProgram.names_ofMachine k
  refine ⟨?_, fun text => Base58.isForm_iff, fun hne => ⟨machine_eq_some_iff, fun hnone => ?_⟩,
    fun d hc hd => ?_⟩
  · exact ⟨_, _, writes_render_ordered _, fun other => loadsFrom_render_iff, rfl, hnames,
      machine_eq_some_iff.2 hnames.isForm⟩
  · exact machine_eq_error_iff.2 ⟨hne, hnone, rfl⟩
  · have hsame := Base58.isForm_iff.1 (machine_eq_some_iff.1 hd)
    exact (Base58.isForm_iff.1 (machine_eq_some_iff.1 hc)).trans hsame.symm

/-- A record with a text that is the form of no address. -/
def misnamed : Cache := { fresh "" "devnet" "temp" with program := ⟨"", "not-a-key", ""⟩ }

/-- An address of zero bytes alone has the shortest form; what is no form is a fault. -/
theorem machine_survives_zeros :
    (∃ (text : String) (loaded : Cache),
      Writes { misnamed with program := .ofMachine .systemProgram } text ∧
      loaded.LoadsFrom "" "devnet" "temp" false (Bytes.ofText text) ∧
      loaded.program = ⟨"111111", "11111111111111111111111111111111", ""⟩ ∧
      loaded.machine = .ok (some .systemProgram)) ∧
    misnamed.program.candyMachine ≠ "" ∧ misnamed.machine = .error (.invalidMachine "not-a-key") := by
  obtain ⟨⟨text, loaded, hwrites, hloads, hprogram, -, hmachine⟩, -, hother, -⟩ :=
    machine_survives .systemProgram misnamed "" "devnet" "temp" false
  have hne : misnamed.program.candyMachine ≠ "" := by decide
  have hnone : Address.ofText? misnamed.program.candyMachine = none := by decide +kernel
  have hzeros : CacheProgram.ofMachine .systemProgram =
      ⟨"111111", "11111111111111111111111111111111", ""⟩ := by decide +kernel
  exact ⟨⟨text, loaded, hwrites, (hloads loaded).2 rfl, hprogram.trans hzeros, hmachine⟩, hne,
    (hother hne).2 (Address.ofText?_eq_none_iff.1 hnone)⟩

end Cache

end CandyDrop
