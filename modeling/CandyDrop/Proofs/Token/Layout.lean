import CandyDrop.Proofs.Borsh.Exact
import CandyDrop.Proofs.Script.Account
import CandyDrop.Token.Account

/-!
# The layout of mints and token accounts

Which bytes are a mint and which are a token account, said without a decoder: `Mint.LaidOut` and
`TokenAccount.LaidOut` put the parts one after another. A part that may not count is `Token.Tagged`,
and what stands in the place of one that does not count may be anything. The decoders accept exactly
these bytes, so that the checks of a mint and of a token account accept exactly what is laid out like
one and is initialized, and refuse everything else, each for its reason (`Mint.accountCheck`,
`TokenAccount.accountCheck`).
-/

namespace CandyDrop

open Borsh (Decoder)
open Borsh.Decoder

/-! ## Parts that may not count -/

namespace Token

variable {α : Type} {d : Decoder α} {width : Nat} {encode : α → Bytes}

/-- The forms of a part of some width that only counts if the number before it is one. -/
def Tagged (width : Nat) (encode : α → Bytes) : Option α → Bytes → Prop
  | none, bs => ∃ unused : Bytes, unused.length = width ∧ bs = Borsh.u32 0 ++ unused
  | some x, bs => bs = Borsh.u32 1 ++ encode x

theorem Tagged.length_eq {x : Option α} {bs : Bytes} (h : Tagged width encode x bs)
    (hencode : ∀ y, (encode y).length = width) : bs.length = 4 + width := by
  cases x with
  | none =>
    obtain ⟨unused, hunused, rfl⟩ := h
    rw [List.length_append, Borsh.length_u32, hunused]
  | some y =>
    obtain rfl : bs = _ := h
    rw [List.length_append, Borsh.length_u32, hencode]

/-- If all bytes of the width are values, those that do not count are only skipped. -/
theorem accepts_tagged (hd : d.Exact encode) (hencode : ∀ x, (encode x).length = width)
    (hall : ∀ bs : Bytes, bs.length = width → ∃ x, encode x = bs) :
    (tagged d).Accepts (Tagged width encode) := by
  refine Accepts.congr (accepts_u32.bind fun tag => hd.bind fun x =>
    (?_ : Accepts _ fun y bs => bs = [] ∧ (tag = 0 ∧ y = none ∨ tag = 1 ∧ y = some x)))
    fun y bs => ?_
  · split
    · exact (accepts_pure none).congr fun y bs => by simp [and_comm]
    · exact (accepts_pure (some x)).congr fun y bs => by simp [and_comm]
    · next h0 h1 =>
      refine accepts_failure.congr fun y bs => iff_of_false id ?_
      rintro ⟨-, ⟨h, -⟩ | ⟨h, -⟩⟩
      · exact h0 h
      · exact h1 h
  constructor
  · rintro ⟨tag, _, _, ⟨-, rfl⟩, ⟨x, _, ⟨rfl, ⟨rfl, rfl⟩ | ⟨rfl, rfl⟩⟩, rfl⟩, rfl⟩
    · rw [List.append_nil]
      exact ⟨encode x, hencode x, rfl⟩
    · rw [List.append_nil]
      exact rfl
  · intro h
    cases y with
    | none =>
      obtain ⟨unused, hunused, rfl⟩ := h
      obtain ⟨x, rfl⟩ := hall unused hunused
      refine ⟨0, _, _, ⟨by decide, rfl⟩, ⟨x, _, ⟨rfl, .inl ⟨rfl, rfl⟩⟩, rfl⟩, ?_⟩
      rw [List.append_nil]
    | some x =>
      obtain rfl : bs = _ := h
      refine ⟨1, _, _, ⟨by decide, rfl⟩, ⟨x, _, ⟨rfl, .inr ⟨rfl, rfl⟩⟩, rfl⟩, ?_⟩
      rw [List.append_nil]

theorem accepts_tagged_address :
    (tagged Decoder.address).Accepts (Tagged 32 Borsh.address) :=
  accepts_tagged exact_address Borsh.length_address fun bs hbs => ⟨⟨bs, hbs⟩, rfl⟩

theorem accepts_tagged_u64 : (tagged Decoder.u64).Accepts (Tagged 8 Borsh.u64) := by
  refine accepts_tagged exact_u64 Borsh.length_u64 fun bs hbs => ?_
  have hlt : Bytes.ofLittleEndian bs < 2 ^ 64 := by
    have h := Bytes.ofLittleEndian_lt bs
    rwa [hbs] at h
  refine ⟨UInt64.ofNat (Bytes.ofLittleEndian bs), ?_⟩
  rw [Borsh.u64, UInt64.toNat_ofNat_of_lt' hlt, ← hbs, Bytes.littleEndian_ofLittleEndian]

end Token

/-! ## Mints -/

namespace Mint

/-- The bytes of a mint. -/
def LaidOut (m : Mint) (bs : Bytes) : Prop :=
  ∃ mintAuthority freezeAuthority : Bytes,
    Token.Tagged 32 Borsh.address m.mintAuthority mintAuthority ∧
    Token.Tagged 32 Borsh.address m.freezeAuthority freezeAuthority ∧
    bs = mintAuthority ++ Borsh.u64 m.supply ++ Borsh.u8 m.decimals
      ++ Borsh.bool m.isInitialized ++ freezeAuthority

variable {m : Mint} {bs : Bytes} {token : Address}

theorem LaidOut.length_eq (h : m.LaidOut bs) : bs.length = 82 := by
  obtain ⟨mintAuthority, freezeAuthority, hmint, hfreeze, rfl⟩ := h
  simp [hmint.length_eq Borsh.length_address, hfreeze.length_eq Borsh.length_address]

theorem accepts_decode : decode.Accepts LaidOut := by
  refine (Token.accepts_tagged_address.bind fun mintAuthority => exact_u64.bind fun supply =>
    exact_u8.bind fun decimals => exact_bool.bind fun isInitialized =>
    Token.accepts_tagged_address.bind fun freezeAuthority => accepts_pure _).congr fun m bs => ?_
  constructor
  · rintro ⟨_, mintBytes, _, hmint, ⟨_, _, ⟨_, _, ⟨_, _, ⟨_, freezeBytes, _, hfreeze, ⟨rfl, rfl⟩, rfl⟩,
      rfl⟩, rfl⟩, rfl⟩, rfl⟩
    exact ⟨mintBytes, freezeBytes, hmint, hfreeze, by simp⟩
  · rintro ⟨mintBytes, freezeBytes, hmint, hfreeze, rfl⟩
    exact ⟨_, mintBytes, _, hmint, ⟨_, _, ⟨_, _, ⟨_, _, ⟨_, freezeBytes, [], hfreeze, ⟨rfl, rfl⟩, rfl⟩,
      rfl⟩, rfl⟩, rfl⟩, by simp⟩

/-- In an account that has the size of a mint, nothing follows it. -/
theorem ofBytes?_eq_some_iff (hsize : bs.length = 82) : ofBytes? bs = some m ↔ m.LaidOut bs := by
  rw [ofBytes?, accepts_decode.exists_iff]
  constructor
  · rintro ⟨front, rest, hfront, rfl⟩
    have hrest : rest = [] := by
      have hlen := hfront.length_eq
      rw [List.length_append] at hsize
      exact List.length_eq_zero_iff.1 (by omega)
    rwa [hrest, List.append_nil]
  · intro h
    exact ⟨bs, [], h, (List.append_nil bs).symm⟩

/-- The bytes of a mint that can be used. -/
def Usable (m : Mint) (bs : Bytes) : Prop :=
  bs.length = 82 ∧ m.LaidOut bs ∧ m.isInitialized = true

/-- Why the content of an account is not the mint `token`. -/
inductive Refuses (token : Address) (bs : Bytes) : AccountFault → Prop
  | size (hsize : bs.length ≠ 82) : Refuses token bs (.tokenSize token)
  | content (hsize : bs.length = 82) (h : ∀ m : Mint, ¬m.LaidOut bs) :
      Refuses token bs .tokenContent
  | uninitialized {m : Mint} (hsize : bs.length = 82) (h : m.LaidOut bs)
      (hm : m.isInitialized = false) : Refuses token bs (.tokenUninitialized token)

theorem ofAccount_of_size (hsize : bs.length = 82) :
    ofAccount token (some bs) = match ofBytes? bs with
      | none => .error .tokenContent
      | some m => if m.isInitialized then .ok m else .error (.tokenUninitialized token) :=
  if_neg (not_not.2 hsize)

/-- What the check of a mint says. -/
theorem accountCheck (token : Address) :
    AccountCheck (ofAccount token) (.tokenNotFound token) Usable (Refuses token) where
  absent := rfl
  ok := by
    rintro bs m ⟨hsize, hm, hinit⟩
    rw [ofAccount_of_size hsize, (ofBytes?_eq_some_iff hsize).2 hm]
    exact if_pos hinit
  error := by
    intro bs fault h
    cases h with
    | size hsize => exact if_pos hsize
    | content hsize h =>
      have hnone : ofBytes? bs = none :=
        Option.eq_none_iff_forall_ne_some.2 fun m hm => h m ((ofBytes?_eq_some_iff hsize).1 hm)
      rw [ofAccount_of_size hsize, hnone]
    | uninitialized hsize hm hinit =>
      rw [ofAccount_of_size hsize, (ofBytes?_eq_some_iff hsize).2 hm]
      exact if_neg (ne_true_of_eq_false hinit)
  total bs := by
    by_cases hsize : bs.length = 82
    · by_cases h : ∃ m : Mint, m.LaidOut bs
      · obtain ⟨m, hm⟩ := h
        cases hinit : m.isInitialized with
        | false => exact .inr ⟨_, .uninitialized hsize hm hinit⟩
        | true => exact .inl ⟨m, hsize, hm, hinit⟩
      · exact .inr ⟨_, .content hsize (not_exists.1 h)⟩
    · exact .inr ⟨_, .size hsize⟩

end Mint

/-! ## Token accounts -/

/-- The byte of a state. -/
def TokenState.byte : TokenState → UInt8
  | uninitialized => 0
  | initialized => 1
  | frozen => 2

namespace TokenAccount

/-- The bytes of a token account. -/
def LaidOut (a : TokenAccount) (bs : Bytes) : Prop :=
  ∃ (delegate : Option Address) (native : Option UInt64) (delegated : UInt64)
      (closeAuthority : Option Address) (delegateBytes nativeBytes closeBytes : Bytes),
    Token.Tagged 32 Borsh.address delegate delegateBytes ∧
    Token.Tagged 8 Borsh.u64 native nativeBytes ∧
    Token.Tagged 32 Borsh.address closeAuthority closeBytes ∧
    bs = Borsh.address a.mint ++ Borsh.address a.owner ++ Borsh.u64 a.amount ++ delegateBytes
      ++ [a.state.byte] ++ nativeBytes ++ Borsh.u64 delegated ++ closeBytes

variable {a : TokenAccount} {bs : Bytes} {account : Address}

theorem LaidOut.length_eq (h : a.LaidOut bs) : bs.length = 165 := by
  obtain ⟨_, _, _, _, delegateBytes, nativeBytes, closeBytes, hdelegate, hnative, hclose, rfl⟩ := h
  simp [hdelegate.length_eq Borsh.length_address, hnative.length_eq Borsh.length_u64,
    hclose.length_eq Borsh.length_address]

theorem exact_decodeState : decodeState.Exact fun s => [s.byte] := by
  refine exact_byte fun b => ?_
  split
  · exact (accepts_pure TokenState.uninitialized).congr fun y bs => by
      cases y <;> simp [TokenState.byte]
  · exact (accepts_pure TokenState.initialized).congr fun y bs => by
      cases y <;> simp [TokenState.byte]
  · exact (accepts_pure TokenState.frozen).congr fun y bs => by
      cases y <;> simp [TokenState.byte]
  · next h0 h1 h2 =>
    refine accepts_failure.congr fun y bs => iff_of_false id ?_
    cases y with
    | uninitialized => exact fun h => h0 h.1
    | initialized => exact fun h => h1 h.1
    | frozen => exact fun h => h2 h.1

theorem accepts_decode : decode.Accepts LaidOut := by
  refine (exact_address.bind fun mint => exact_address.bind fun owner => exact_u64.bind fun amount =>
    Token.accepts_tagged_address.bind fun delegate => exact_decodeState.bind fun state =>
    Token.accepts_tagged_u64.bind fun native => exact_u64.bind fun delegated =>
    Token.accepts_tagged_address.bind fun close => accepts_pure _).congr fun a bs => ?_
  constructor
  · rintro ⟨_, _, ⟨_, _, ⟨_, _, ⟨_, ds, _, hds, ⟨_, _, ⟨_, ns, _, hns, ⟨delegated, _, ⟨_, cs, _, hcs,
      ⟨rfl, rfl⟩, rfl⟩, rfl⟩, rfl⟩, rfl⟩, rfl⟩, rfl⟩, rfl⟩, rfl⟩
    exact ⟨_, _, delegated, _, ds, ns, cs, hds, hns, hcs, by simp⟩
  · rintro ⟨_, _, delegated, _, ds, ns, cs, hds, hns, hcs, rfl⟩
    exact ⟨_, _, ⟨_, _, ⟨_, _, ⟨_, ds, _, hds, ⟨_, _, ⟨_, ns, _, hns, ⟨delegated, _, ⟨_, cs, [], hcs,
      ⟨rfl, rfl⟩, rfl⟩, rfl⟩, rfl⟩, rfl⟩, rfl⟩, rfl⟩, rfl⟩, by simp⟩

theorem ofBytes?_eq_some_iff : ofBytes? bs = some a ↔ a.LaidOut bs := by
  rw [ofBytes?]
  constructor
  · intro h
    split at h
    · next hsize =>
      obtain ⟨front, rest, hfront, rfl⟩ := accepts_decode.exists_iff.1 h
      have hrest : rest = [] := by
        have hlen := hfront.length_eq
        rw [List.length_append, hlen] at hsize
        exact List.length_eq_zero_iff.1 (Nat.add_left_cancel hsize)
      rwa [hrest, List.append_nil]
    · cases h
  · intro h
    refine (if_pos h.length_eq).trans ?_
    exact accepts_decode.exists_iff.2 ⟨bs, [], h, (List.append_nil bs).symm⟩

/-- The bytes of a token account that can be used; it may be frozen. -/
def Usable (a : TokenAccount) (bs : Bytes) : Prop :=
  a.LaidOut bs ∧ a.state ≠ .uninitialized

/-- Why the content of an account is not the token account `account`. -/
inductive Refuses (account : Address) (bs : Bytes) : AccountFault → Prop
  | content (h : ∀ a : TokenAccount, ¬a.LaidOut bs) : Refuses account bs .tokenContent
  | uninitialized {a : TokenAccount} (h : a.LaidOut bs) (ha : a.state = .uninitialized) :
      Refuses account bs (.tokenAccountUninitialized account)

/-- What the check of a token account says. -/
theorem accountCheck (account : Address) :
    AccountCheck (ofAccount account) (.tokenAccountNotFound account) Usable (Refuses account) where
  absent := rfl
  ok := by
    rintro bs a ⟨ha, hstate⟩
    rw [ofAccount, ofBytes?_eq_some_iff.2 ha]
    exact if_neg hstate
  error := by
    intro bs fault h
    cases h with
    | content h =>
      have hnone : ofBytes? bs = none :=
        Option.eq_none_iff_forall_ne_some.2 fun a ha => h a (ofBytes?_eq_some_iff.1 ha)
      rw [ofAccount, hnone]
    | uninitialized ha hstate =>
      rw [ofAccount, ofBytes?_eq_some_iff.2 ha]
      exact if_pos hstate
  total bs := by
    by_cases h : ∃ a : TokenAccount, a.LaidOut bs
    · obtain ⟨a, ha⟩ := h
      by_cases hstate : a.state = .uninitialized
      · exact .inr ⟨_, .uninitialized ha hstate⟩
      · exact .inl ⟨a, ha, hstate⟩
    · exact .inr ⟨_, .content (not_exists.1 h)⟩

end TokenAccount

end CandyDrop
