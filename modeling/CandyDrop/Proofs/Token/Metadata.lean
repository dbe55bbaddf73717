import CandyDrop.Proofs.Borsh.Exact
import CandyDrop.Proofs.Script.Account
import CandyDrop.Token.Metadata

/-!
# The layout of token metadata

Which bytes start with the metadata of a token (`TokenMetadata.LaidOut`), and which are a master
edition (`MasterEdition.IsMaster`). The metadata are read up to the number of editions: what follows
may be anything, and of an edition only the first byte counts. The two checks accept exactly these
bytes (`TokenMetadata.accountCheck`, `MasterEdition.accountCheck`).
-/

namespace CandyDrop

open Borsh (Decoder)
open Borsh.Decoder

namespace Borsh.Decoder

variable {α : Type} {d : Decoder α} {form : α → Bytes → Prop}

/-- Some values are turned down before the rest is read. -/
theorem Accepts.unless {p : Prop} [Decidable p] {f : Unit → Decoder α} (h : d.Accepts form) :
    Accepts (if p then failure >>= f else d) fun x bs => ¬p ∧ form x bs := by
  by_cases hp : p
  · rw [if_pos hp]
    intro input x rest
    refine iff_of_false nofun ?_
    rintro ⟨_, ⟨hnot, -⟩, -⟩
    exact hnot hp
  · rw [if_neg hp]
    exact h.congr fun x bs => (and_iff_right hp).symm

end Borsh.Decoder

theorem Machine.Creator.exact_decode : Creator.decode.Exact Creator.encode := by
  refine (exact_address.bind fun address => exact_bool.bind fun verified =>
    exact_u8.bind fun share => accepts_pure _).congr fun c bs => ?_
  constructor
  · rintro ⟨_, _, ⟨_, _, ⟨_, _, ⟨rfl, rfl⟩, rfl⟩, rfl⟩, rfl⟩
    simp [Creator.encode]
  · rintro rfl
    exact ⟨_, _, ⟨_, _, ⟨_, [], ⟨rfl, rfl⟩, rfl⟩, rfl⟩, by simp [Creator.encode]⟩

/-! ## Metadata -/

namespace TokenMetadata

/-- The bytes of the metadata. The lengths of texts and lists have four bytes. -/
def LaidOut (m : TokenMetadata) (bs : Bytes) : Prop :=
  ∃ (kind : UInt8) (fee : UInt16) (creators : Option (List Machine.Creator)) (sold changes : Bool)
      (nonce : Option UInt8),
    kind ≤ 12 ∧ Bytes.sizeOfText m.name < 2 ^ 32 ∧ Bytes.sizeOfText m.symbol < 2 ^ 32 ∧
    Bytes.sizeOfText m.uri < 2 ^ 32 ∧ (∀ cs ∈ creators, cs.length < 2 ^ 32) ∧
    bs = Borsh.u8 kind ++ Borsh.address m.updateAuthority ++ Borsh.address m.mint
      ++ Borsh.text m.name ++ Borsh.text m.symbol ++ Borsh.text m.uri ++ Borsh.u16 fee
      ++ Borsh.option (Borsh.list Machine.Creator.encode) creators ++ Borsh.bool sold
      ++ Borsh.bool changes ++ Borsh.option Borsh.u8 nonce

variable {m : TokenMetadata} {bs : Bytes} {address : Address}

theorem accepts_decode : decode.Accepts LaidOut := by
  have hnonce : (Decoder.option u8).Accepts fun x bs =>
      (∀ y ∈ x, True) ∧ bs = Borsh.option Borsh.u8 x :=
    accepts_option (exact_u8.congr fun x bs => (and_iff_right trivial).symm)
  refine (exact_u8.bind fun kind => Accepts.unless (p := maxKind < kind) <|
    exact_address.bind fun updateAuthority => exact_address.bind fun mint =>
    accepts_text.bind fun name => accepts_text.bind fun symbol => accepts_text.bind fun uri =>
    exact_u16.bind fun fee =>
    (accepts_option (accepts_list Machine.Creator.exact_decode)).bind fun creators =>
    exact_bool.bind fun sold => exact_bool.bind fun changes => hnonce.bind fun nonce =>
    accepts_pure _).congr fun m bs => ?_
  constructor
  · rintro ⟨kind, _, ⟨hkind, _, _, ⟨_, _, ⟨_, _, _, ⟨hname, rfl⟩, ⟨_, _, _, ⟨hsymbol, rfl⟩, ⟨_, _, _,
      ⟨huri, rfl⟩, ⟨fee, _, ⟨creators, _, _, ⟨hcreators, rfl⟩, ⟨sold, _, ⟨changes, _, ⟨nonce, _, _,
      ⟨-, rfl⟩, ⟨rfl, rfl⟩, rfl⟩, rfl⟩, rfl⟩, rfl⟩, rfl⟩, rfl⟩, rfl⟩, rfl⟩, rfl⟩, rfl⟩, rfl⟩
    exact ⟨kind, fee, creators, sold, changes, nonce, UInt8.not_lt.1 hkind, hname, hsymbol, huri,
      hcreators, by simp⟩
  · rintro ⟨kind, fee, creators, sold, changes, nonce, hkind, hname, hsymbol, huri, hcreators, rfl⟩
    exact ⟨kind, _, ⟨UInt8.not_lt.2 hkind, _, _, ⟨_, _, ⟨_, _, _, ⟨hname, rfl⟩, ⟨_, _, _,
      ⟨hsymbol, rfl⟩, ⟨_, _, _, ⟨huri, rfl⟩, ⟨fee, _, ⟨creators, _, _, ⟨hcreators, rfl⟩, ⟨sold, _,
      ⟨changes, _, ⟨nonce, _, [], ⟨fun _ _ => trivial, rfl⟩, ⟨rfl, rfl⟩, rfl⟩, rfl⟩, rfl⟩, rfl⟩, rfl⟩,
      rfl⟩, rfl⟩, rfl⟩, rfl⟩, rfl⟩, by simp⟩

/-- The bytes of an account with these metadata. -/
def Usable (m : TokenMetadata) (bs : Bytes) : Prop :=
  ∃ front rest, m.LaidOut front ∧ bs = front ++ rest

/-- Why there are no metadata in the account `address`. -/
inductive Refuses (address : Address) (bs : Bytes) : AccountFault → Prop
  | malformed (h : ∀ m : TokenMetadata, ¬m.Usable bs) :
      Refuses address bs (.metadataMalformed address)

theorem map_decode_eq_some_iff : (decode bs).map (·.1) = some m ↔ m.Usable bs :=
  accepts_decode.exists_iff

theorem ofAccount_some (address : Address) (bs : Bytes) :
    ofAccount address (some bs) =
      ((decode bs).map (·.1)).elim (.error (.metadataMalformed address)) .ok := by
  rw [ofAccount]
  cases decode bs <;> rfl

/-- What the check of metadata says. -/
theorem accountCheck (address : Address) :
    AccountCheck (ofAccount address) (.metadataNotFound address) Usable (Refuses address) where
  absent := rfl
  ok := by
    intro bs m h
    rw [ofAccount_some, map_decode_eq_some_iff.2 h, Option.elim_some]
  error := by
    rintro bs _ ⟨h⟩
    have hnone : (decode bs).map (·.1) = none :=
      Option.eq_none_iff_forall_ne_some.2 fun m hm => h m (map_decode_eq_some_iff.1 hm)
    rw [ofAccount_some, hnone, Option.elim_none]
  total bs := by
    by_cases h : ∃ m : TokenMetadata, m.Usable bs
    · exact .inl h
    · exact .inr ⟨_, .malformed (not_exists.1 h)⟩

end TokenMetadata

/-! ## Editions -/

namespace MasterEdition

/-- The first byte names a master edition of the first or the second version. -/
def IsMaster (bs : Bytes) : Prop := bs.head? = some 2 ∨ bs.head? = some 6

/-- Why the account `address` is no master edition. -/
inductive Refuses (address : Address) (bs : Bytes) : AccountFault → Prop
  | invalid (h : ¬IsMaster bs) : Refuses address bs (.editionInvalid address)

theorem isMaster_eq_true_iff {bs : Bytes} : isMaster bs = true ↔ IsMaster bs := by
  cases bs <;> simp [isMaster, IsMaster]

/-- What the check of an edition says. -/
theorem accountCheck (address : Address) :
    AccountCheck (ofAccount address) (.editionNotFound address) (fun _ => IsMaster)
      (Refuses address) where
  absent := rfl
  ok h := if_pos (isMaster_eq_true_iff.2 h)
  error := by
    rintro bs _ ⟨h⟩
    exact if_neg (mt isMaster_eq_true_iff.1 h)
  total bs := by
    by_cases h : IsMaster bs
    · exact .inl ⟨(), h⟩
    · exact .inr ⟨_, .invalid h⟩

end MasterEdition

end CandyDrop
