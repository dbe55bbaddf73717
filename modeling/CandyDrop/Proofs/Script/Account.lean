import CandyDrop.Proofs.Script.Runs

/-!
# Reading an account

A step of a script that reads an account and checks it can end in three ways: the cluster does not
answer, there is no such account, or its content is accepted or refused. `AccountCheck` says of a
check what it accepts and what it refuses, and why; `Account.Found` and `Account.Refused` say the
same of an answer of the cluster. A step then ends with a value or a failure if and only if the
answer is of that kind (`AccountCheck.found_iff`, `AccountCheck.refused_iff`).

A script that asks for nothing but accounts has one run for each way in which they can be answered
(`Script.Runs.eq_of_reads`). So to find out how all its runs end it is enough to give one.
-/

namespace CandyDrop

/-- What the cluster answers when it is asked for an account. -/
abbrev AccountAnswer := Except ClusterFault (Option Bytes)

/-- What the cluster answers for each account. -/
abbrev Accounts := Address → AccountAnswer

/-- An account that is read in the event is answered like this. -/
def Accounts.Shows (accounts : Accounts) : Event → Prop
  | ⟨.account a, answer⟩ => answer = accounts a
  | _ => True

/-- The event in which an account is read. -/
def Accounts.read (accounts : Accounts) (a : Address) : Event := ⟨.account a, accounts a⟩

/-- Whether a request is for an account. -/
def Request.IsAccount : Request → Prop
  | .account _ => True
  | _ => False

theorem Request.IsAccount.exists_eq {r : Request} (h : r.IsAccount) : ∃ a, r = .account a := by
  cases r with
  | account a => exact ⟨a, rfl⟩
  | _ => exact h.elim

variable {α β : Type} {a : Address} {es : List Event}

/-- What a check says of the content of an account: it accepts some bytes for a value and refuses all
others for a reason. -/
structure AccountCheck (check : Option Bytes → Except AccountFault α) (missing : AccountFault)
    (accepts : α → Bytes → Prop) (refuses : Bytes → AccountFault → Prop) : Prop where
  absent : check none = .error missing
  ok : ∀ {bs x}, accepts x bs → check (some bs) = .ok x
  error : ∀ {bs fault}, refuses bs fault → check (some bs) = .error fault
  total : ∀ bs, (∃ x, accepts x bs) ∨ ∃ fault, refuses bs fault

namespace Account

/-- There is such an account. -/
def Found (accepts : α → Bytes → Prop) (x : α) (answer : AccountAnswer) : Prop :=
  ∃ bs, answer = .ok (some bs) ∧ accepts x bs

/-- There is no such account, and this is why. -/
inductive Refused (missing : AccountFault) (refuses : Bytes → AccountFault → Prop) :
    AccountAnswer → Failure → Prop
  | unread (fault : ClusterFault) : Refused missing refuses (.error fault) (.cluster fault)
  | missing : Refused missing refuses (.ok none) (.account missing)
  | refused {bs : Bytes} {fault : AccountFault} (h : refuses bs fault) :
      Refused missing refuses (.ok (some bs)) (.account fault)

/-- What a step that reads and checks an account ends with. -/
def outcome (check : Option Bytes → Except AccountFault α) (answer : AccountAnswer) :
    Except Failure α :=
  answer.mapError .cluster >>= fun content => (check content).mapError .account

end Account

namespace AccountCheck

variable {check : Option Bytes → Except AccountFault α} {missing : AccountFault}
  {accepts : α → Bytes → Prop} {refuses : Bytes → AccountFault → Prop}
  (h : AccountCheck check missing accepts refuses) {answer : AccountAnswer}
include h

theorem accepts_iff {bs : Bytes} {x : α} : check (some bs) = .ok x ↔ accepts x bs := by
  refine ⟨fun hx => ?_, h.ok⟩
  obtain ⟨y, hy⟩ | ⟨fault, hfault⟩ := h.total bs
  · rw [h.ok hy] at hx
    cases hx
    exact hy
  · rw [h.error hfault] at hx
    cases hx

theorem refuses_iff {bs : Bytes} {fault : AccountFault} :
    check (some bs) = .error fault ↔ refuses bs fault := by
  refine ⟨fun he => ?_, h.error⟩
  obtain ⟨y, hy⟩ | ⟨fault', hfault⟩ := h.total bs
  · rw [h.ok hy] at he
    cases he
  · rw [h.error hfault] at he
    cases he
    exact hfault

/-- A step ends with a value if and only if there is an account with it. -/
theorem found_iff {x : α} :
    Account.outcome check answer = .ok x ↔ Account.Found accepts x answer := by
  simp only [Account.outcome, except_bind_eq_ok_iff, mapError_eq_ok_iff]
  constructor
  · rintro ⟨content, rfl, hx⟩
    cases content with
    | none =>
      rw [h.absent] at hx
      cases hx
    | some bs => exact ⟨bs, rfl, h.accepts_iff.1 hx⟩
  · rintro ⟨bs, rfl, hx⟩
    exact ⟨some bs, rfl, h.ok hx⟩

/-- A step fails if and only if there is no such account, and for this reason. -/
theorem refused_iff {e : Failure} :
    Account.outcome check answer = .error e ↔ Account.Refused missing refuses answer e := by
  simp only [Account.outcome, except_bind_eq_error_iff, mapError_eq_ok_iff, mapError_eq_error_iff]
  constructor
  · rintro (⟨fault, rfl, rfl⟩ | ⟨content, rfl, fault, hfault, rfl⟩)
    · exact .unread fault
    · cases content with
      | none =>
        rw [h.absent] at hfault
        cases hfault
        exact .missing
      | some bs => exact .refused (h.refuses_iff.1 hfault)
  · intro hrefused
    cases hrefused with
    | unread fault => exact .inl ⟨fault, rfl, rfl⟩
    | missing => exact .inr ⟨none, rfl, _, h.absent, rfl⟩
    | refused hbs => exact .inr ⟨some _, rfl, _, h.error hbs, rfl⟩

end AccountCheck

namespace Script

variable {s : Script α} {o o' : Except Failure α} {accounts : Accounts} {reads reads' : List Address}
  {P : Failure → Prop}

/-- A step that reads and checks an account asks for nothing else. -/
theorem runs_checked_iff {check : Option Bytes → Except AccountFault α} :
    (account a >>= fun content => ofExcept .account (check content)).Runs es o ↔
      ∃ answer, es = [⟨.account a, answer⟩] ∧ o = Account.outcome check answer := by
  refine runs_ask_iff.trans (exists_congr fun answer => ?_)
  cases answer with
  | error fault =>
    constructor
    · rintro ⟨_, rfl, hend⟩
      obtain ⟨rfl, rfl⟩ := runs_fail_iff.1 hend
      exact ⟨rfl, rfl⟩
    · rintro ⟨rfl, rfl⟩
      exact ⟨[], rfl, .fail _⟩
  | ok content =>
    constructor
    · rintro ⟨_, rfl, hend⟩
      obtain ⟨rfl, rfl⟩ := runs_ofExcept_iff.1 hend
      exact ⟨rfl, rfl⟩
    · rintro ⟨rfl, rfl⟩
      exact ⟨[], rfl, runs_ofExcept_iff.2 ⟨rfl, rfl⟩⟩

/-! ## Scripts that only read accounts -/

theorem only_account (h : ∀ fault, P (.cluster fault)) : (account a).Only Request.IsAccount P :=
  ⟨trivial, fun _ => only_ofExcept fun fault _ => h fault⟩

/-- Such a script can be run on any accounts. -/
theorem Only.exists_reads (hs : s.Only Request.IsAccount P) (accounts : Accounts) :
    ∃ (reads : List Address) (o : Except Failure α), s.Runs (reads.map accounts.read) o := by
  induction s with
  | done x => exact ⟨[], _, .done x⟩
  | fail e => exact ⟨[], _, .fail e⟩
  | ask r next ih =>
    obtain ⟨hr, hnext⟩ := hs
    cases r with
    | account a =>
      obtain ⟨reads, o, h⟩ := ih (accounts a) (hnext _)
      exact ⟨a :: reads, o, .ask h⟩
    | _ => exact hr.elim

theorem shows_reads (accounts : Accounts) (reads : List Address) :
    ∀ e ∈ reads.map accounts.read, accounts.Shows e := by
  intro e he
  obtain ⟨a, -, rfl⟩ := List.mem_map.1 he
  exact rfl

/-- A run of such a script reads accounts one after another. -/
theorem Runs.exists_reads (h : s.Runs es o) (hs : s.Only Request.IsAccount P)
    (hes : ∀ e ∈ es, accounts.Shows e) : ∃ reads : List Address, es = reads.map accounts.read := by
  have hrequests := h.forall_request hs
  clear h hs
  induction es with
  | nil => exact ⟨[], rfl⟩
  | cons e es ih =>
    rw [List.forall_mem_cons] at hes hrequests
    obtain ⟨reads, rfl⟩ := ih hes.2 hrequests.2
    obtain ⟨r, answer⟩ := e
    cases r with
    | account a =>
      obtain rfl : answer = accounts a := hes.1
      exact ⟨a :: reads, rfl⟩
    | _ => exact hrequests.1.elim

/-- What the accounts are decides what is read and how it ends. -/
theorem Runs.eq_of_reads (h : s.Runs (reads.map accounts.read) o)
    (h' : s.Runs (reads'.map accounts.read) o') : reads = reads' ∧ o = o' := by
  generalize hes : reads.map accounts.read = es at h
  induction h generalizing reads reads' with
  | done x =>
    rw [List.map_eq_nil_iff] at hes
    obtain ⟨hnil, rfl⟩ := runs_done_iff.1 h'
    rw [List.map_eq_nil_iff] at hnil
    exact ⟨hes.trans hnil.symm, rfl⟩
  | fail e =>
    rw [List.map_eq_nil_iff] at hes
    obtain ⟨hnil, rfl⟩ := runs_fail_iff.1 h'
    rw [List.map_eq_nil_iff] at hnil
    exact ⟨hes.trans hnil.symm, rfl⟩
  | ask h ih =>
    obtain ⟨answer, fs, hes', h'⟩ := runs_ask_iff.1 h'
    obtain ⟨a, rest, rfl, hfirst, rfl⟩ := List.map_eq_cons_iff.1 hes
    obtain ⟨b, rest', rfl, hsecond, rfl⟩ := List.map_eq_cons_iff.1 hes'
    cases hfirst
    cases hsecond
    obtain ⟨rfl, rfl⟩ := ih h' rfl
    exact ⟨rfl, rfl⟩

end Script

namespace AccountCheck

variable {check : Option Bytes → Except AccountFault α} {missing : AccountFault}
  {accepts : α → Bytes → Prop} {refuses : Bytes → AccountFault → Prop} {accounts : Accounts}
  (h : AccountCheck check missing accepts refuses)
include h

/-- There is an account or there is a reason. -/
theorem found_or_refused (answer : AccountAnswer) :
    (∃ x, Account.Found accepts x answer) ∨ ∃ e, Account.Refused missing refuses answer e := by
  cases ho : Account.outcome check answer with
  | ok x => exact .inl ⟨x, h.found_iff.1 ho⟩
  | error e => exact .inr ⟨e, h.refused_iff.1 ho⟩

/-- A step asks for nothing but its account, and it fails for one of three reasons. -/
theorem only {P : Failure → Prop} (hunread : ∀ fault, P (.cluster fault))
    (hmissing : P (.account missing))
    (hrefuses : ∀ bs fault, refuses bs fault → P (.account fault)) :
    (Script.account a >>= fun content => Script.ofExcept .account (check content)).Only
      Request.IsAccount P := by
  refine (Script.only_account hunread).bind fun content =>
    Script.only_ofExcept fun fault hfault => ?_
  cases content with
  | none =>
    rw [h.absent] at hfault
    cases hfault
    exact hmissing
  | some bs => exact hrefuses bs fault (h.refuses_iff.1 hfault)

theorem runs_of_found {x : α} (hx : Account.Found accepts x (accounts a)) :
    (Script.account a >>= fun content => Script.ofExcept .account (check content)).Runs
      [accounts.read a] (.ok x) :=
  Script.runs_checked_iff.2 ⟨_, rfl, (h.found_iff.2 hx).symm⟩

theorem runs_of_refused {e : Failure} (he : Account.Refused missing refuses (accounts a) e) :
    (Script.account a >>= fun content => Script.ofExcept .account (check content)).Runs
      [accounts.read a] (.error e) :=
  Script.runs_checked_iff.2 ⟨_, rfl, (h.refused_iff.2 he).symm⟩

/-- What follows a step goes on with what it has found. -/
theorem runs_bind_of_found {x : α} {f : α → Script β} {o : Except Failure β}
    (hx : Account.Found accepts x (accounts a)) (hf : (f x).Runs es o) :
    (Script.account a >>= fun content => Script.ofExcept .account (check content) >>= f).Runs
      (accounts.read a :: es) o := by
  rw [← Script.bind_assoc]
  exact (h.runs_of_found hx).bind hf

theorem runs_bind_of_refused {e : Failure} {f : α → Script β}
    (he : Account.Refused missing refuses (accounts a) e) :
    (Script.account a >>= fun content => Script.ofExcept .account (check content) >>= f).Runs
      [accounts.read a] (.error e) := by
  rw [← Script.bind_assoc]
  exact Script.runs_bind_iff.2 (.inl ⟨e, rfl, h.runs_of_refused he⟩)

end AccountCheck

end CandyDrop
