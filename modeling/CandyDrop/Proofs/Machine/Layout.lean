import CandyDrop.Machine.Layout
import CandyDrop.Proofs.Borsh.RoundTrip
import CandyDrop.Proofs.Cluster.Effects

/-!
# The layout of a machine

The parts of a machine have known lengths, apart from their texts, and the decoder of each part takes
what its encoder wrote. The data as a whole are read back if their texts and creators can be counted
in four bytes (`MachineData.takes_decode`), which they can be if their encoding is no longer than
that. So they can be read from the instruction that sets up a machine
(`Instruction.machineData?_initializeMachine`).
-/

namespace CandyDrop

/-! ## Parts of any layout -/

namespace Borsh.Decoder

variable {α β : Type} {d : Decoder α} {bs : Bytes} {x : α}

/-- The last part of a value. -/
theorem Takes.last (h : Takes d bs x) (f : α → β) : Takes (d >>= fun x => pure (f x)) bs (f x) := by
  rw [← List.append_nil bs]
  exact h.bind (takes_pure _)

theorem takes_u8 (n : UInt8) : Takes u8 (Borsh.u8 n) n := by
  have hnumber : Takes (number 1) (Bytes.littleEndian 1 n.toNat) n.toNat :=
    takes_number n.toNat_lt
  simpa [Bytes.littleEndian, Borsh.u8, u8] using hnumber.map UInt8.ofNat

theorem takes_u16 (n : UInt16) : Takes u16 (Borsh.u16 n) n := by
  have hnumber : Takes (number 2) (Borsh.u16 n) n.toNat := takes_number n.toNat_lt
  simpa [u16] using hnumber.map UInt16.ofNat

theorem takes_u64 (n : UInt64) : Takes u64 (Borsh.u64 n) n := by
  have hnumber : Takes (number 8) (Borsh.u64 n) n.toNat := takes_number n.toNat_lt
  simpa [u64] using hnumber.map UInt64.ofNat

theorem takes_i64 (n : Int64) : Takes i64 (Borsh.i64 n) n := by
  have h := (takes_u64 n.toUInt64).map UInt64.toInt64
  simpa [Borsh.i64, i64] using h

theorem takes_bool (b : Bool) : Takes bool (Borsh.bool b) b := by
  cases b
  · exact (takes_u8 0).last fun _ => false
  · exact (takes_u8 1).last fun _ => true

theorem takes_address (a : Address) : Takes address (Borsh.address a) a := by
  have h := takes_take a.length_bytes
  rw [Borsh.address, ← List.append_nil a.bytes]
  refine h.bind ?_
  rw [Address.ofBytes?_bytes]
  exact takes_pure a

theorem takes_option {encode : α → Bytes} {x : Option α} (h : ∀ y ∈ x, Takes d (encode y) y) :
    Takes (option d) (Borsh.option encode x) x := by
  cases x with
  | none => exact (takes_bool false).bind (takes_pure none)
  | some y => exact (takes_bool true).bind ((h y rfl).map some)

end Borsh.Decoder

open Borsh.Decoder

/-! ## Parts of a machine -/

namespace Machine

@[simp] theorem Creator.length_encode (c : Creator) : c.encode.length = 34 := by
  simp [Creator.encode]

@[simp] theorem EndSettings.length_encode (e : EndSettings) : e.encode.length = 9 := by
  cases e <;> simp [EndSettings.encode]

@[simp] theorem Whitelist.length_encode (w : Whitelist) :
    w.encode.length = 35 + w.discountPrice.elim 0 fun _ => 8 := by
  cases h : w.mode <;> simp [Whitelist.encode, WhitelistMode.encode, Borsh.length_option, h] <;> omega

@[simp] theorem HiddenSettings.length_encode (h : HiddenSettings) :
    h.encode.length = 40 + Bytes.sizeOfText h.name + Bytes.sizeOfText h.uri := by
  simp [HiddenSettings.encode, h.length_hash]
  omega

@[simp] theorem Gatekeeper.length_encode (g : Gatekeeper) : g.encode.length = 33 := by
  simp [Gatekeeper.encode]

theorem Creator.takes_decode (c : Creator) : Takes decode c.encode c := by
  rw [Creator.encode, List.append_assoc]
  exact (takes_address _).bind ((takes_bool _).bind ((takes_u8 _).last _))

theorem EndSettings.takes_decode (e : EndSettings) : Takes decode e.encode e := by
  cases e with
  | date n => exact (takes_u8 0).bind ((takes_u64 n).map _)
  | amount n => exact (takes_u8 1).bind ((takes_u64 n).map _)

theorem WhitelistMode.takes_decode (m : WhitelistMode) : Takes decode m.encode m := by
  cases m with
  | burnEveryTime => exact (takes_u8 0).bind (takes_pure _)
  | neverBurn => exact (takes_u8 1).bind (takes_pure _)

theorem Whitelist.takes_decode (w : Whitelist) : Takes decode w.encode w := by
  rw [Whitelist.encode, List.append_assoc, List.append_assoc]
  exact w.mode.takes_decode.bind ((takes_address _).bind ((takes_bool _).bind
    ((takes_option fun n _ => takes_u64 n).last _)))

theorem HiddenSettings.takes_decode {h : HiddenSettings} (hname : Bytes.sizeOfText h.name < 2 ^ 32)
    (huri : Bytes.sizeOfText h.uri < 2 ^ 32) : Takes decode h.encode h := by
  rw [HiddenSettings.encode, List.append_assoc]
  refine (takes_text hname).bind ((takes_text huri).bind ?_)
  rw [← List.append_nil h.hash]
  refine (takes_take h.length_hash).bind ?_
  rw [dif_pos h.length_hash]
  exact takes_pure h

theorem Gatekeeper.takes_decode (g : Gatekeeper) : Takes decode g.encode g :=
  (takes_address _).bind ((takes_bool _).last _)

end Machine

/-! ## The data -/

namespace MachineData

/-- The texts and the creators can be counted in four bytes. -/
structure IsCountable (d : MachineData) : Prop where
  shortName : Bytes.sizeOfText d.shortName < 2 ^ 32
  symbol : Bytes.sizeOfText d.symbol < 2 ^ 32
  creators : d.creators.length < 2 ^ 32
  hidden : ∀ h ∈ d.hiddenSettings, Bytes.sizeOfText h.name < 2 ^ 32 ∧
    Bytes.sizeOfText h.uri < 2 ^ 32

/-- **The data of a machine are read back.** -/
theorem takes_decode {d : MachineData} (h : d.IsCountable) : Takes decode d.encode d := by
  have hcreators := takes_list h.creators fun c _ => Machine.Creator.takes_decode c
  have hhidden := takes_option (x := d.hiddenSettings) fun s hs =>
    Machine.HiddenSettings.takes_decode (h.hidden s hs).1 (h.hidden s hs).2
  rw [List.map_id'] at hcreators
  simp only [encode, List.append_assoc]
  exact (takes_text h.shortName).bind <| (takes_u64 _).bind <| (takes_text h.symbol).bind <|
    (takes_u16 _).bind <| (takes_u64 _).bind <| (takes_bool _).bind <| (takes_bool _).bind <|
    (takes_option fun n _ => takes_i64 n).bind <|
    (takes_option fun e _ => Machine.EndSettings.takes_decode e).bind <| hcreators.bind <|
    hhidden.bind <| (takes_option fun w _ => Machine.Whitelist.takes_decode w).bind <|
    (takes_u64 _).bind <| (takes_option fun g _ => Machine.Gatekeeper.takes_decode g).last _

theorem isCountable_of_length {d : MachineData} (h : d.encode.length < 2 ^ 32) :
    d.IsCountable := by
  simp only [encode, List.length_append, Borsh.length_text, Borsh.length_option,
    Borsh.length_list Machine.Creator.length_encode, Machine.HiddenSettings.length_encode] at h
  refine ⟨by omega, by omega, by omega, fun hidden hhidden => ?_⟩
  rw [Option.mem_def.1 hhidden, Option.elim_some] at h
  omega

end MachineData

/-! ## Reading them back -/

namespace Instruction

/-- The data that an instruction sets up a machine with. -/
def machineData? (i : Instruction) : Option MachineData := do
  let arguments ← i.arguments? "initialize_candy_machine"
  let (data, _) ← MachineData.decode arguments
  return data

theorem machineData?_initializeMachine {machine wallet payer : Address}
    {tokenMint : Option Address} {data : MachineData} (h : data.IsCountable) :
    (initializeMachine machine wallet payer tokenMint data).machineData? = some data := by
  have htakes := MachineData.takes_decode h []
  rw [List.append_nil] at htakes
  rw [machineData?, initializeMachine, arguments?_machineCall_self]
  simp only [Option.bind_eq_bind, Option.bind_some, htakes]
  rfl

end Instruction

end CandyDrop
