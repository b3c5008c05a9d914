import Mathlib.Logic.Function.Iterate
import GreenWallet.Accounts.Records

/-!
# A fetch of the transactions of an account

The fetch asks for one page after the other and goes on as long as they are full. Each page
brings its transactions, and after the last one those that no page has brought lose their rows.
-/
namespace GreenWallet.Accounts
open GreenWallet.Library GreenWallet.Wallets

/-- The transactions of a page, which are the task's once it has finished. -/
def transactionsOnPage (task : GetTransactions) (server : List TransactionData) :
    List TransactionData :=
  (server.drop (task.page * task.size)).take task.size

theorem length_transactionsOnPage (page size : ℕ) (server : List TransactionData) :
    (transactionsOnPage { page := page, size := size } server).length =
      min size (server.length - page * size) := by
  rw [transactionsOnPage, List.length_take, List.length_drop]

/-- The records, and the page that has been asked for. -/
structure Fetch where
  records : Records
  task : Option GetTransactions

namespace Records

/-- The round of the loop over a page. -/
def bring (account : AccountRef) (s : Records) (data : TransactionData) : Records :=
  (s.getOrCreateTransaction account data).touchTransaction account data.txhash

def fetchTransactions (s : Records) (account : AccountRef) : Fetch :=
  { records := s.beginFetchTransactions account, task := some { page := 0, size := 30 } }

end Records

/-- A page is there. A full one asks for the next, any other is the last. -/
def Records.pageFinished (account : AccountRef) (server : List TransactionData) (s : Records)
    (task : GetTransactions) : Fetch :=
  if (transactionsOnPage task server).length = task.size then
    { records := (transactionsOnPage task server).foldl (bring account) s
      task := some { task with page := task.page + 1 } }
  else
    { records :=
        ((transactionsOnPage task server).foldl (bring account) s).endFetchTransactions account
      task := none }

def Fetch.finished (account : AccountRef) (server : List TransactionData) (fetch : Fetch) : Fetch :=
  fetch.task.elim fetch (fetch.records.pageFinished account server)

namespace Records
variable {s s' : Records} {account : AccountRef} {server : List TransactionData}

/-- After as many pages as the server has, the last one of them not full, the account's rows are
one for each hash the server has, and the others are what they were. -/
structure Mirrors (account : AccountRef) (server : List TransactionData) (s : Records)
    (fetch : ℕ → Fetch) : Prop where
  requests : ∀ n ≤ server.length / 30, (fetch n).task = some { page := n, size := 30 }
  ends : ∀ n > server.length / 30, (fetch n).task = none
  rows : ∀ n > server.length / 30, ∀ hash,
    (fetch n).records.context.rows.count ⟨account, hash⟩ =
      if ∃ data ∈ server, data.txhash = hash then 1 else 0
  others : ∀ n,
    ((fetch n).records.context.m_transaction_model.filter fun item =>
      item.transaction.account ≠ account) =
    s.context.m_transaction_model.filter fun item => item.transaction.account ≠ account

/-- What has become of the records when a fetch has brought these transactions. -/
structure Brought (account : AccountRef) (s : Records) (brought : List TransactionData)
    (s' : Records) : Prop where
  consistent : s'.Consistent
  rows : ∀ hash, ⟨account, hash⟩ ∈ s'.context.rows ↔
    (∃ data ∈ brought, data.txhash = hash) ∨ ⟨account, hash⟩ ∈ s.context.rows
  known : ∀ hash ∈ (s.account account).transactions, hash ∈ (s'.account account).transactions
  dangling : ∀ hash, hash ∈ (s'.account account).dangling_transactions ↔
    (¬ ∃ data ∈ brought, data.txhash = hash) ∧ hash ∈ (s.account account).transactions
  others : (s'.context.m_transaction_model.filter fun item => item.transaction.account ≠ account) =
    s.context.m_transaction_model.filter fun item => item.transaction.account ≠ account

theorem brought_begin (h : s.Consistent) (account : AccountRef) :
    Brought account s [] (s.beginFetchTransactions account) where
  consistent := h.next (.beginFetchTransactions account)
  rows hash := by simp [beginFetchTransactions]
  known hash hmem := by simpa [beginFetchTransactions, Account.beginFetchTransactions] using hmem
  dangling hash := by simp [beginFetchTransactions, Account.beginFetchTransactions]
  others := rfl

/-- A new row of the account's does not show among those of the others. -/
theorem others_addTransaction (context : Context AccountTransaction) (t : AccountTransaction) :
    ((context.addTransaction t).m_transaction_model.filter fun item =>
      item.transaction.account ≠ t.account) =
    context.m_transaction_model.filter fun item => item.transaction.account ≠ t.account := by
  rw [Context.addTransaction]
  split_ifs
  · show (context.m_transaction_model ++ _).filter _ = _
    simp
  · rfl

theorem others_removeTransaction {context : Context AccountTransaction} (h : context.Consistent)
    (t : AccountTransaction) :
    ((context.removeTransaction t).m_transaction_model.filter fun item =>
      item.transaction.account ≠ t.account) =
    context.m_transaction_model.filter fun item => item.transaction.account ≠ t.account := by
  rw [Context.m_transaction_model_removeTransaction h, List.filter_filter]
  apply List.filter_congr
  intro item _
  rw [← Bool.decide_and, decide_eq_decide, and_iff_left_iff_imp]
  intro hne heq
  exact hne (by rw [heq])

theorem others_foldl_evict {transactions : Hashes} (hashes : List String)
    {context : Context AccountTransaction} (h : context.Consistent) :
    ((hashes.foldl (evict account transactions) context).m_transaction_model.filter fun item =>
      item.transaction.account ≠ account) =
    context.m_transaction_model.filter fun item => item.transaction.account ≠ account := by
  induction hashes generalizing context with
  | nil => rfl
  | cons hash hashes ih =>
      have hround : (evict account transactions context hash).Consistent :=
        consistent_foldl_evict [hash] h
      rw [List.foldl_cons, ih hround, evict]
      split_ifs
      · exact others_removeTransaction h ⟨account, hash⟩
      · rfl

/-! ## The pages -/

theorem Brought.bring {brought : List TransactionData} (h : Brought account s brought s')
    (data : TransactionData) : Brought account s (brought ++ [data]) (s'.bring account data) where
  consistent :=
    (h.consistent.getOrCreateTransaction account data).next (.touchTransaction account data.txhash)
  rows hash := by
    have hrow : ⟨account, hash⟩ ∈ (s'.bring account data).context.rows ↔
        (⟨account, hash⟩ : AccountTransaction) = ⟨account, data.txhash⟩ ∨
          ⟨account, hash⟩ ∈ s'.context.rows := mem_rows_getOrCreateTransaction h.consistent
    rw [hrow, h.rows]
    simp only [AccountTransaction.mk.injEq, true_and, List.mem_append, List.mem_singleton]
    grind
  known hash hmem := by
    have hold := h.known hash hmem
    simp [Records.bring, touchTransaction, Account.touchTransaction, insertTransaction, hold]
  dangling hash := by
    have hstep : hash ∈ ((s'.bring account data).account account).dangling_transactions ↔
        hash ≠ data.txhash ∧ hash ∈ (s'.account account).dangling_transactions := by
      simp [Records.bring, touchTransaction, Account.touchTransaction, insertTransaction]
    rw [hstep, h.dangling]
    simp only [List.mem_append, List.mem_singleton]
    grind
  others := by
    rw [← h.others]
    show ((s'.getOrCreateTransaction account data).context.m_transaction_model.filter _) = _
    rw [context_getOrCreateTransaction]
    exact others_addTransaction s'.context ⟨account, data.txhash⟩

theorem Brought.foldl_bring {brought : List TransactionData} (page : List TransactionData)
    (h : Brought account s brought s') :
    Brought account s (brought ++ page) (page.foldl (Records.bring account) s') := by
  induction page generalizing brought s' with
  | nil => rwa [List.append_nil]
  | cons data page ih =>
      have hrest := ih (h.bring data)
      rwa [List.append_assoc, List.singleton_append] at hrest

/-- The known transactions that have not been brought are just those that have been left. -/
theorem Brought.endFetchTransactions (hs : s.Consistent) (h : Brought account s server s')
    (hash : String) : ⟨account, hash⟩ ∈ (s'.endFetchTransactions account).context.rows ↔
      ∃ data ∈ server, data.txhash = hash := by
  rw [mem_rows_endFetchTransactions h.consistent, h.rows]
  have hevicted : s'.Evicted account ⟨account, hash⟩ ↔
      (¬ ∃ data ∈ server, data.txhash = hash) ∧ hash ∈ (s.account account).transactions := by
    constructor
    · intro ⟨_, _, hdangling⟩
      exact (h.dangling hash).mp hdangling
    · intro hleft
      exact ⟨rfl, h.known hash hleft.2, (h.dangling hash).mpr hleft⟩
  rw [hevicted]
  constructor
  · rintro ⟨hbrought | hrow, hstays⟩
    · exact hbrought
    · by_contra hnone
      exact hstays ⟨hnone, hs.known _ hrow⟩
  · intro hbrought
    exact ⟨.inl hbrought, fun hleft => hleft.1 hbrought⟩

theorem fetch_pages (hs : s.Consistent) (account : AccountRef) {n : ℕ}
    (hn : n ≤ server.length / 30) :
    ((Fetch.finished account server)^[n] (s.fetchTransactions account)).task =
        some { page := n, size := 30 } ∧
      Brought account s (server.take (n * 30))
        ((Fetch.finished account server)^[n] (s.fetchTransactions account)).records := by
  induction n with
  | zero => exact ⟨rfl, brought_begin hs account⟩
  | succ n ih =>
      obtain ⟨htask, hbrought⟩ := ih (by omega)
      have hfull : (transactionsOnPage { page := n, size := 30 } server).length = 30 := by
        rw [length_transactionsOnPage]
        omega
      rw [Function.iterate_succ_apply', Fetch.finished, htask, Option.elim_some, pageFinished,
        if_pos hfull]
      refine ⟨rfl, ?_⟩
      have hnext := hbrought.foldl_bring (transactionsOnPage { page := n, size := 30 } server)
      rwa [transactionsOnPage, ← List.take_add, ← Nat.succ_mul] at hnext

/-- The page after the full ones is the last. -/
theorem fetch_lastPage (hs : s.Consistent) (account : AccountRef) :
    ∃ s', Brought account s server s' ∧
      (Fetch.finished account server)^[server.length / 30 + 1] (s.fetchTransactions account) =
        { records := s'.endFetchTransactions account, task := none } := by
  obtain ⟨htask, hbrought⟩ := fetch_pages hs account (le_refl (server.length / 30))
  have hlast : (transactionsOnPage { page := server.length / 30, size := 30 } server).length ≠ 30 := by
    rw [length_transactionsOnPage]
    omega
  have hend : (server.take (server.length / 30 * 30) ++
      transactionsOnPage { page := server.length / 30, size := 30 } server) = server := by
    rw [transactionsOnPage, ← List.take_add]
    apply List.take_of_length_le
    show server.length ≤ server.length / 30 * 30 + 30
    omega
  have hall := hbrought.foldl_bring
    (transactionsOnPage { page := server.length / 30, size := 30 } server)
  rw [hend] at hall
  refine ⟨_, hall, ?_⟩
  rw [Function.iterate_succ_apply', Fetch.finished, htask, Option.elim_some, pageFinished,
    if_neg hlast]

theorem finished_of_ended {fetch : Fetch} (h : fetch.task = none) (n : ℕ) :
    (Fetch.finished account server)^[n] fetch = fetch := by
  apply Function.iterate_fixed
  rw [Fetch.finished, h, Option.elim_none]

theorem fetch_ended (hs : s.Consistent) (account : AccountRef) {n : ℕ}
    (hn : n > server.length / 30) :
    ∃ s', Brought account s server s' ∧
      (Fetch.finished account server)^[n] (s.fetchTransactions account) =
        { records := s'.endFetchTransactions account, task := none } := by
  obtain ⟨s', hbrought, hlast⟩ := @fetch_lastPage s server hs account
  obtain ⟨extra, rfl⟩ := Nat.exists_eq_add_of_lt hn
  refine ⟨s', hbrought, ?_⟩
  rw [show server.length / 30 + extra + 1 = extra + (server.length / 30 + 1) by omega,
    Function.iterate_add_apply, hlast]
  exact finished_of_ended rfl extra

/-- Whatever has happened before, a fetch that runs alone and whose tasks all finish ends, and
leaves the rows of its account as the server has them. -/
theorem fetch_mirrors (es : List RecordsEvent) (account : AccountRef)
    (server : List TransactionData) :
    Mirrors account server (recordsCalls.run {} es) fun n =>
      (Fetch.finished account server)^[n] ((recordsCalls.run {} es).fetchTransactions account) := by
  have hs : (recordsCalls.run {} es).Consistent :=
    Reactive.run_invariant (P := fun _ _ => True) (fun s e h _ => h.next e) consistent_empty
      (Reactive.along_of_at fun _ _ _ _ => trivial)
  refine ⟨fun n hn => (fetch_pages hs account hn).1, ?_, ?_, ?_⟩
  · intro n hn
    obtain ⟨s', -, hend⟩ := fetch_ended hs account hn
    exact congrArg Fetch.task hend
  · intro n hn hash
    obtain ⟨s', hbrought, hend⟩ := fetch_ended hs account hn
    simp only [hend]
    have hnodup := (hbrought.consistent.endFetchTransactions account).context.nodup_rows
    rw [List.Nodup.count hnodup]
    exact if_congr (hbrought.endFetchTransactions hs hash) rfl rfl
  · intro n
    by_cases hn : n ≤ server.length / 30
    · exact (fetch_pages hs account hn).2.others
    · obtain ⟨s', hbrought, hend⟩ := fetch_ended hs account (Nat.lt_of_not_le hn)
      simp only [hend]
      exact (others_foldl_evict _ hbrought.consistent.context).trans hbrought.others

end Records

end GreenWallet.Accounts
