import Mathlib.Data.List.Basic
import Mathlib.Data.List.Nodup
import GreenWallet.Library.Jobs
import GreenWallet.Library.Keyed
import GreenWallet.Library.Reactive

/-!
# The transactions of an account

The transactions of an account are fetched from the server page by page, after every
block or transaction event anew. A fetch first lists all transactions the account knows
as dangling; every page takes those it brings off that list, and what is left on it after
the last page loses its row. The list is one for the account, however many fetches are
under way.
-/
namespace GreenWallet.Wallets
open GreenWallet.Library

/-- Transaction hashes, each once. -/
structure Hashes where
  list : List String
  nodup : list.Nodup
deriving DecidableEq

namespace Hashes

instance : EmptyCollection Hashes := ⟨[], List.nodup_nil⟩

instance : Membership String Hashes := ⟨fun hashes hash => hash ∈ hashes.list⟩

instance (hash : String) (hashes : Hashes) : Decidable (hash ∈ hashes) :=
  inferInstanceAs (Decidable (hash ∈ hashes.list))

def insert (hash : String) (hashes : Hashes) : Hashes :=
  ⟨hashes.list.insert hash, hashes.nodup.insert⟩

def erase (hash : String) (hashes : Hashes) : Hashes :=
  ⟨hashes.list.erase hash, hashes.nodup.erase hash⟩

@[simp] theorem notMem_empty (hash : String) : hash ∉ (∅ : Hashes) := List.not_mem_nil

@[simp] theorem mem_insert {hash other : String} {hashes : Hashes} :
    other ∈ hashes.insert hash ↔ other = hash ∨ other ∈ hashes := List.mem_insert_iff

@[simp] theorem mem_erase {hash other : String} {hashes : Hashes} :
    other ∈ hashes.erase hash ↔ other ≠ hash ∧ other ∈ hashes := hashes.nodup.mem_erase_iff

end Hashes

structure Account where
  /-- The keys of `m_transactions_by_hash`. -/
  transactions : Hashes := ∅
  dangling_transactions : Hashes := ∅

/-- A page that has been asked for. -/
structure GetTransactions where
  page : ℕ
  size : ℕ
deriving DecidableEq

/-- The account, its rows in the context's model of transactions, the pages asked for. -/
structure Transactions where
  account : Account := {}
  rows : Hashes := ∅
  tasks : Jobs GetTransactions := {}

/-- A page is answered from what the server has at that moment. -/
inductive TransactionsEvent where
  /-- A fetch is started, by an event of the session or when the network is loaded. -/
  | fetchTransactions
  | finished (task : ℕ) (snapshot : List String)
  | failed (task : ℕ)
  /-- A transaction of the wallet's own has been sent. -/
  | sent (hash : String)

/-- `GA_get_transactions`, from `first` on at most `count`. -/
def getTransactions (first count : ℕ) (snapshot : List String) : List String :=
  (snapshot.drop first).take count

def GetTransactions.answer (task : GetTransactions) (snapshot : List String) : List String :=
  getTransactions (task.page * task.size) task.size snapshot

namespace Account

def beginFetchTransactions (account : Account) : Account :=
  { account with dangling_transactions := account.transactions }

def touchTransaction (hash : String) (account : Account) : Account :=
  { account with dangling_transactions := account.dangling_transactions.erase hash }

end Account

namespace Transactions

def addTransaction (hash : String) (s : Transactions) : Transactions :=
  { s with rows := s.rows.insert hash }

def removeTransaction (hash : String) (s : Transactions) : Transactions :=
  { s with rows := s.rows.erase hash }

def getOrCreateTransaction (hash : String) (s : Transactions) : Transactions :=
  { s with
    account := { s.account with transactions := s.account.transactions.insert hash } }.addTransaction
    hash

/-- The round of the loop over a page. -/
def bring (s : Transactions) (hash : String) : Transactions :=
  let s := s.getOrCreateTransaction hash
  { s with account := s.account.touchTransaction hash }

/-- What is left dangling loses its row; a hash that is not known has none. -/
def endFetchTransactions (s : Transactions) : Transactions :=
  let s' := s.account.dangling_transactions.list.foldl
    (fun s hash => if hash ∈ s.account.transactions then s.removeTransaction hash else s) s
  { s' with account := { s'.account with dangling_transactions := ∅ } }

def fetchPage (page size : ℕ) (s : Transactions) : Transactions :=
  { s with tasks := s.tasks.launch { page := page, size := size } }

def fetchTransactions (s : Transactions) : Transactions :=
  { s with account := s.account.beginFetchTransactions }.fetchPage 0 30

/-- A page is there. A full one asks for the next, any other is the last. -/
def finished (id : ℕ) (task : GetTransactions) (snapshot : List String) (s : Transactions) :
    Transactions :=
  let transactions := task.answer snapshot
  let s := transactions.foldl bring { s with tasks := s.tasks.finish id }
  if transactions.length = task.size then s.fetchPage (task.page + 1) task.size
  else s.endFetchTransactions

def next (s : Transactions) : TransactionsEvent → Transactions
  | .fetchTransactions => s.fetchTransactions
  | .finished id snapshot =>
      match s.tasks.find id with
      | none => s
      | some task => s.finished id task snapshot
  | .failed id => { s with tasks := s.tasks.finish id }
  | .sent hash => s.getOrCreateTransaction hash

end Transactions

def transactions : Reactive Transactions TransactionsEvent Empty where
  enabled := fun s e =>
    match e with
    | .finished id _ | .failed id => (s.tasks.find id).isSome = true
    | _ => True
  next := Transactions.next
  emits := fun _ _ => []

instance (s : Transactions) (e : TransactionsEvent) : Decidable (transactions.enabled s e) := by
  cases e <;> simp only [transactions] <;> infer_instance

/-- The snapshots of the server a run has observed all contain the transaction. -/
def Settled (hash : String) (es : List TransactionsEvent) : Prop :=
  ∀ id snapshot, .finished id snapshot ∈ es → hash ∈ snapshot

namespace Transactions

/-- The step brings the transaction, on a page. -/
def Brings (hash : String) (s : Transactions) : TransactionsEvent → Prop
  | .finished id snapshot => ∃ task ∈ s.tasks.find id, hash ∈ task.answer snapshot
  | _ => False

/-- The step brings the last page of a fetch. -/
def LastPage (s : Transactions) : TransactionsEvent → Prop
  | .finished id snapshot =>
      ∃ task ∈ s.tasks.find id, (task.answer snapshot).length ≠ task.size
  | _ => False

/-- A fetch begins, and the account knows the transaction. -/
def Lists (hash : String) (s : Transactions) (e : TransactionsEvent) : Prop :=
  e = .fetchTransactions ∧ hash ∈ s.account.transactions

end Transactions

/-- The transaction keeps its row. -/
def KeepsRow (hash : String) (s : Transactions) (e : TransactionsEvent) : Prop :=
  hash ∈ s.rows → hash ∈ (s.next e).rows

/-- A last page brings the transaction itself, unless a page has brought it, or another
last page has come, since a fetch last began that knew of it. -/
def BroughtInTime (hash : String) (es : List TransactionsEvent) : Prop :=
  ∀ fs e gs, es = fs ++ e :: gs → (transactions.run {} fs).LastPage e →
    transactions.Since (Transactions.Lists hash)
      (fun s e => s.Brings hash e ∨ s.LastPage e) {} fs →
    (transactions.run {} fs).Brings hash e

namespace Transactions

/-! What a page and the end of a fetch do to the three sets. -/

theorem mem_transactions_foldl_bring {hash : String} (list : List String) (s : Transactions) :
    hash ∈ (list.foldl bring s).account.transactions ↔
      hash ∈ list ∨ hash ∈ s.account.transactions := by
  have hround (s : Transactions) (other : String) :
      hash ∈ (s.bring other).account.transactions ↔ hash = other ∨ hash ∈ s.account.transactions := by
    simp only [bring, getOrCreateTransaction, addTransaction, Account.touchTransaction,
      Hashes.mem_insert]
  have h := Keyed.foldl_gains (fun s : Transactions => hash ∈ s.account.transactions) hround list s
  simpa only [exists_eq_right'] using h

theorem mem_rows_foldl_bring {hash : String} (list : List String) (s : Transactions) :
    hash ∈ (list.foldl bring s).rows ↔ hash ∈ list ∨ hash ∈ s.rows := by
  have hround (s : Transactions) (other : String) :
      hash ∈ (s.bring other).rows ↔ hash = other ∨ hash ∈ s.rows := by
    simp only [bring, getOrCreateTransaction, addTransaction, Hashes.mem_insert]
  have h := Keyed.foldl_gains (fun s : Transactions => hash ∈ s.rows) hround list s
  simpa only [exists_eq_right'] using h

theorem mem_dangling_foldl_bring {hash : String} (list : List String) (s : Transactions) :
    hash ∈ (list.foldl bring s).account.dangling_transactions ↔
      hash ∉ list ∧ hash ∈ s.account.dangling_transactions := by
  have hround (s : Transactions) (other : String) :
      hash ∈ (s.bring other).account.dangling_transactions ↔
        ¬ hash = other ∧ hash ∈ s.account.dangling_transactions := by
    simp only [bring, getOrCreateTransaction, addTransaction, Account.touchTransaction,
      Hashes.mem_erase, ne_eq]
  have h := Keyed.foldl_keeps (fun s : Transactions => hash ∈ s.account.dangling_transactions) hround
    list s
  simpa only [List.forall_mem_ne] using h

theorem account_foldl_remove (list : List String) (s : Transactions) :
    (list.foldl (fun s hash => if hash ∈ s.account.transactions then s.removeTransaction hash else s)
      s).account = s.account := by
  induction list generalizing s with
  | nil => rfl
  | cons head list ih =>
      rw [List.foldl_cons, ih]
      split_ifs <;> rfl

theorem mem_rows_foldl_remove {hash : String} (list : List String) (s : Transactions) :
    hash ∈ (list.foldl
        (fun s hash => if hash ∈ s.account.transactions then s.removeTransaction hash else s) s).rows ↔
      hash ∈ s.rows ∧ ¬ (hash ∈ list ∧ hash ∈ s.account.transactions) := by
  induction list generalizing s with
  | nil => simp
  | cons head list ih =>
      rw [List.foldl_cons, ih, List.mem_cons]
      split_ifs with hknown
      · simp only [removeTransaction, Hashes.mem_erase]
        by_cases heq : hash = head
        · subst heq
          tauto
        · tauto
      · by_cases heq : hash = head
        · subst heq
          tauto
        · tauto

theorem transactions_endFetchTransactions (s : Transactions) :
    s.endFetchTransactions.account.transactions = s.account.transactions := by
  simp only [endFetchTransactions, account_foldl_remove]

theorem mem_rows_endFetchTransactions {hash : String} (s : Transactions) :
    hash ∈ s.endFetchTransactions.rows ↔
      hash ∈ s.rows ∧
        ¬ (hash ∈ s.account.dangling_transactions ∧ hash ∈ s.account.transactions) := by
  simp only [endFetchTransactions, mem_rows_foldl_remove]
  rfl

/-- What a page does to the sets of the account and to the rows. -/
theorem mem_finished (hash : String) (id : ℕ) (task : GetTransactions) (snapshot : List String)
    (s : Transactions) :
    (hash ∈ (s.finished id task snapshot).account.transactions ↔
        hash ∈ task.answer snapshot ∨ hash ∈ s.account.transactions) ∧
      (hash ∈ (s.finished id task snapshot).account.dangling_transactions ↔
        hash ∈ s.account.dangling_transactions ∧
          ¬ (hash ∈ task.answer snapshot ∨ (task.answer snapshot).length ≠ task.size)) := by
  simp only [finished]
  split_ifs with hfull
  · simp only [fetchPage, mem_transactions_foldl_bring, mem_dangling_foldl_bring]
    tauto
  · simp only [transactions_endFetchTransactions, mem_transactions_foldl_bring]
    simp only [endFetchTransactions, Hashes.notMem_empty]
    tauto

theorem mem_rows_finished {hash : String} (id : ℕ) (task : GetTransactions)
    (snapshot : List String) (s : Transactions)
    (hknown : hash ∈ s.account.dangling_transactions → hash ∈ s.account.transactions) :
    hash ∈ (s.finished id task snapshot).rows ↔
      hash ∈ task.answer snapshot ∨
        hash ∈ s.rows ∧ ¬ (hash ∈ s.account.dangling_transactions ∧
          (task.answer snapshot).length ≠ task.size) := by
  simp only [finished]
  split_ifs with hfull
  · simp only [fetchPage, mem_rows_foldl_bring]
    tauto
  · rw [mem_rows_endFetchTransactions, mem_rows_foldl_bring, mem_dangling_foldl_bring,
      mem_transactions_foldl_bring]
    tauto

/-- What dangles is known, and what is known has a row unless it has lost it. -/
theorem known_next {hash : String} {s : Transactions} (e : TransactionsEvent)
    (h : hash ∈ s.account.dangling_transactions → hash ∈ s.account.transactions) :
    hash ∈ (s.next e).account.dangling_transactions → hash ∈ (s.next e).account.transactions := by
  cases e with
  | fetchTransactions => exact id
  | finished id snapshot =>
      simp only [next]
      cases hfind : s.tasks.find id with
      | none => exact h
      | some task =>
          obtain ⟨htransactions, hdangling⟩ := mem_finished hash id task snapshot s
          rw [htransactions, hdangling]
          tauto
  | failed id => exact h
  | sent other =>
      simp only [next, getOrCreateTransaction, addTransaction, Hashes.mem_insert]
      tauto

/-- The list of dangling transactions, as the history of the fetches. -/
theorem mem_dangling_next {hash : String} {s : Transactions} (e : TransactionsEvent)
    (h : hash ∈ s.account.dangling_transactions → hash ∈ s.account.transactions) :
    hash ∈ (s.next e).account.dangling_transactions ↔
      s.Lists hash e ∨
        hash ∈ s.account.dangling_transactions ∧ ¬ (s.Brings hash e ∨ s.LastPage e) := by
  cases e with
  | fetchTransactions =>
      simp only [next, fetchTransactions, fetchPage, Account.beginFetchTransactions, Lists, Brings,
        LastPage]
      tauto
  | finished id snapshot =>
      simp only [next, Lists, Brings, LastPage]
      cases hfind : s.tasks.find id with
      | none => simp
      | some task =>
          obtain ⟨-, hdangling⟩ := mem_finished hash id task snapshot s
          simp [hdangling]
  | failed id => simp [next, Lists, Brings, LastPage]
  | sent other => simp [next, getOrCreateTransaction, addTransaction, Lists, Brings, LastPage]

/-- A row is lost only to a last page that leaves it dangling. -/
theorem keepsRow_iff {hash : String} {s : Transactions} (e : TransactionsEvent)
    (h : hash ∈ s.account.dangling_transactions → hash ∈ s.account.transactions) :
    KeepsRow hash s e ↔
      (hash ∈ s.rows → s.LastPage e → hash ∈ s.account.dangling_transactions → s.Brings hash e) := by
  unfold KeepsRow
  cases e with
  | fetchTransactions => simp [next, fetchTransactions, fetchPage, LastPage]
  | finished id snapshot =>
      simp only [next, Brings, LastPage]
      cases hfind : s.tasks.find id with
      | none => simp
      | some task =>
          simp only [mem_rows_finished id task snapshot s h, Option.mem_some_iff,
            exists_eq_left']
          tauto
  | failed id => simp [next, LastPage]
  | sent other =>
      simp [next, getOrCreateTransaction, addTransaction, LastPage]
      tauto

/-- What the account comes to know gets its row with it. -/
theorem known_or_row {hash : String} {s : Transactions} (e : TransactionsEvent)
    (h : hash ∈ s.account.dangling_transactions → hash ∈ s.account.transactions)
    (hnext : hash ∈ (s.next e).account.transactions) :
    hash ∈ s.account.transactions ∨ hash ∈ (s.next e).rows := by
  cases e with
  | fetchTransactions | failed id => exact .inl hnext
  | finished id snapshot =>
      simp only [next] at hnext ⊢
      cases hfind : s.tasks.find id with
      | none =>
          rw [hfind] at hnext
          exact .inl hnext
      | some task =>
          rw [hfind] at hnext
          rcases (mem_finished hash id task snapshot s).1.mp hnext with hbrought | hknown
          · exact .inr ((mem_rows_finished id task snapshot s h).mpr (.inl hbrought))
          · exact .inl hknown
  | sent other =>
      rcases Hashes.mem_insert.mp hnext with rfl | hknown
      · exact .inr (Hashes.mem_insert.mpr (.inl rfl))
      · exact .inl hknown

/-- What the account knows has a row, and so has what dangles. -/
structure Shown (hash : String) (s : Transactions) : Prop where
  known : hash ∈ s.account.dangling_transactions → hash ∈ s.account.transactions
  row : hash ∈ s.account.transactions → hash ∈ s.rows

theorem Shown.next {hash : String} {s : Transactions} (e : TransactionsEvent)
    (hs : s.Shown hash) (hkeeps : KeepsRow hash s e) : (s.next e).Shown hash where
  known := known_next e hs.known
  row := by
    intro hnext
    rcases known_or_row e hs.known hnext with hknown | hrow
    · exact hkeeps (hs.row hknown)
    · exact hrow

theorem dangling_iff_since (hash : String) (es : List TransactionsEvent) :
    hash ∈ (transactions.run {} es).account.dangling_transactions ↔
      transactions.Since (Lists hash) (fun s e => s.Brings hash e ∨ s.LastPage e) {} es := by
  apply Reactive.iff_since (R := transactions) (V := fun _ _ => True)
    (I := fun s => hash ∈ s.account.dangling_transactions)
    (J := fun s => hash ∈ s.account.dangling_transactions → hash ∈ s.account.transactions)
  · intro s e hs _
    exact known_next e hs
  · intro s e hs _
    exact mem_dangling_next e hs
  · exact fun hmem => absurd hmem (Hashes.notMem_empty hash)
  · exact Hashes.notMem_empty hash
  · exact Reactive.along_of_at fun _ _ _ _ => trivial

theorem known_run (hash : String) (es : List TransactionsEvent) :
    hash ∈ (transactions.run {} es).account.dangling_transactions →
      hash ∈ (transactions.run {} es).account.transactions := by
  apply Reactive.run_invariant (R := transactions) (P := fun _ _ => True)
    (I := fun s => hash ∈ s.account.dangling_transactions → hash ∈ s.account.transactions)
  · intro s e hs _
    exact known_next e hs
  · exact fun hmem => absurd hmem (Hashes.notMem_empty hash)
  · exact Reactive.along_of_at fun _ _ _ _ => trivial

theorem shown_run {hash : String} {es : List TransactionsEvent}
    (h : transactions.Along (KeepsRow hash) {} es) : (transactions.run {} es).Shown hash := by
  apply Reactive.run_invariant (R := transactions) (P := KeepsRow hash)
  · intro s e hs hkeeps
    exact hs.next e hkeeps
  · exact ⟨fun hmem => absurd hmem (Hashes.notMem_empty hash),
      fun hmem => absurd hmem (Hashes.notMem_empty hash)⟩
  · exact h

theorem along_keepsRow_iff (hash : String) (es : List TransactionsEvent) :
    transactions.Along (KeepsRow hash) {} es ↔ BroughtInTime hash es := by
  constructor
  · intro h fs e gs hsplit hlast hsince
    rw [hsplit] at h
    have hshown := shown_run ((transactions.along_append _ _ fs (e :: gs)).mp h).1
    have hdangling := (dangling_iff_since hash fs).mpr hsince
    have hrow := hshown.row (hshown.known hdangling)
    exact (keepsRow_iff e hshown.known).mp (h.at fs) hrow hlast hdangling
  · intro h
    apply Reactive.along_of_at
    intro fs e gs hsplit
    apply (keepsRow_iff e (known_run hash fs)).mpr
    intro _ hlast hdangling
    exact h fs e gs hsplit hlast ((dangling_iff_since hash fs).mp hdangling)

end Transactions

/-- **Rows are not lost.** In a run every transaction that is in all snapshots of the server
keeps its row, exactly if the last page of each fetch finds it brought in time. -/
theorem keepsRow_iff_broughtInTime (es : List TransactionsEvent) :
    (∀ hash, Settled hash es → transactions.Along (KeepsRow hash) {} es) ↔
      ∀ hash, Settled hash es → BroughtInTime hash es := by
  constructor
  · intro h hash hsettled
    exact (Transactions.along_keepsRow_iff hash es).mp (h hash hsettled)
  · intro h hash hsettled
    exact (Transactions.along_keepsRow_iff hash es).mpr (h hash hsettled)

/-- One transaction more than a page holds. -/
def longHistory : List String := (List.range 31).map toString

/-- A fetch is half done when the next one begins, and is the first to end. -/
def overlappingFetches : List TransactionsEvent :=
  [.fetchTransactions, .finished 0 longHistory, .fetchTransactions, .finished 1 longHistory]

theorem not_keepsRow_overlappingFetches :
    transactions.Valid {} overlappingFetches ∧
      ¬ ∀ hash, Settled hash overlappingFetches →
        transactions.Along (KeepsRow hash) {} overlappingFetches := by
  refine ⟨by decide +kernel, ?_⟩
  intro h
  have hsettled : Settled "0" overlappingFetches := by
    intro id snapshot hmem
    have hsnapshot : snapshot = longHistory := by
      simp only [overlappingFetches, List.mem_cons, List.not_mem_nil, TransactionsEvent.finished.injEq,
        reduceCtorEq, or_false, false_or] at hmem
      rcases hmem with ⟨-, h⟩ | ⟨-, h⟩ <;> exact h
    rw [hsnapshot]
    decide +kernel
  have hkeeps : KeepsRow "0" (transactions.run {} (overlappingFetches.take 3))
      (.finished 1 longHistory) := (h "0" hsettled).at (overlappingFetches.take 3)
  have hrow : "0" ∈ (transactions.run {} (overlappingFetches.take 3)).rows := by decide +kernel
  exact absurd (hkeeps hrow) (by decide +kernel)

end GreenWallet.Wallets
