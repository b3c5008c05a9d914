import GreenWallet.Tasks.Alone

/-!
# The pages of payments

`LoadPaymentsTask` asks for one page after the other, each after the last key it has
seen. The count of what remains decides whether it asks again, and a page that holds no
transaction leaves the key as it is.
-/
namespace GreenWallet.Tasks.LoadPaymentsTask

variable {ι : Type} [Fintype ι] [DecidableEq ι]

/-- The reply to what the task asked for first, if it waits for one. -/
def receive (t : ι) (report : Report) (w : World ι) : World ι :=
  (w.pendings t).head?.elim w fun pending => w.next (.completes ⟨t, pending⟩ report)

/-- The world after the first replies to the task. -/
def replied (t : ι) (reports : ℕ → Report) (w : World ι) : ℕ → World ι
  | 0 => LoadPaymentsTask.update t w
  | n + 1 => receive t (reports n) (replied t reports w n)

/-- The last key on the first pages. -/
def lastKey (reports : ℕ → Report) : ℕ → String
  | 0 => ""
  | n + 1 => (reports n).page.elim (lastKey reports n) fun page =>
      page.keys.getLastD (lastKey reports n)

/-- The first replies are pages that leave something to fetch. -/
def Continues (reports : ℕ → Report) (n : ℕ) : Prop :=
  ∀ i < n, ∃ page, (reports i).page = some page ∧ 0 < page.remaining

/-- A page that leaves something to fetch ends with another key than those before it. -/
def Advances (reports : ℕ → Report) : Prop :=
  ∀ (n : ℕ) (page : Page), Continues reports n → (reports n).page = some page →
    0 < page.remaining → page.keys.getLastD (lastKey reports n) ≠ lastKey reports n

/-- What a history holds after a key. Without a key it is all of it. -/
def following (history : List String) (key : String) : List String :=
  if key = "" then history else (history.dropWhile (· ≠ key)).tail

/-- The pages are taken from one history, each from what follows the key that was asked with. -/
structure Serves (history : List String) (reports : ℕ → Report) : Prop where
  nodup : history.Nodup
  empty_notMem : "" ∉ history
  page : ∀ (n : ℕ) (page : Page), Continues reports n → (reports n).page = some page →
    page.keys.Sublist (following history (lastKey reports n))

theorem following_suffix (history : List String) (key : String) :
    following history key <:+ history := by
  rw [following]
  split_ifs
  · exact List.suffix_refl _
  · exact (List.tail_suffix _).trans (List.dropWhile_suffix _)

theorem following_lt {history : List String} (hnodup : history.Nodup) (hempty : "" ∉ history)
    {key next : String} (h : next ∈ following history key) :
    (following history next).length < (following history key).length := by
  obtain ⟨before, hbefore⟩ := following_suffix history key
  have hmem : next ∈ history := by
    rw [← hbefore]
    exact List.mem_append_right before h
  have hne : next ≠ "" := fun hnext => hempty (hnext ▸ hmem)
  have hnotbefore : ∀ other ∈ before, decide (other ≠ next) = true := by
    intro other hother
    rw [← hbefore] at hnodup
    have hdisjoint := (List.nodup_append.mp hnodup).2.2 other hother next h
    exact decide_eq_true hdisjoint
  have hdrop : history.dropWhile (· ≠ next) = (following history key).dropWhile (· ≠ next) := by
    conv_lhs => rw [← hbefore]
    exact List.dropWhile_append_of_pos hnotbefore
  have hle := (List.dropWhile_suffix (fun other => decide (other ≠ next))
    (l := following history key)).length_le
  have hpos := List.length_pos_of_mem h
  rw [following, if_neg hne, hdrop, List.length_tail]
  omega

section Steps
variable {t : ι} {report : Report} {w : World ι} {key : String}

theorem receive_more (h : w.pendings t = [.fetch key]) {page : Page}
    (hpage : report.page = some page) (hmore : 0 < page.remaining) :
    (receive t report w).pendings t = [.fetch (page.keys.getLastD key)] := by
  have hstep : receive t report w =
      (w.drop ⟨t, .fetch key⟩).start t (.fetch (page.keys.getLastD key)) := by
    simp only [receive, h, List.head?_cons, Option.elim_some, World.next, World.complete,
      LoadPaymentsTask.fetched, hpage, gt_iff_lt, hmore, if_true]
  have hview : ((receive t report w).view t).pendings =
      (w.pendings t).erase (.fetch key) ++ [.fetch (page.keys.getLastD key)] := by
    rw [hstep, World.view_start, World.view_drop]
    rfl
  rw [h, List.erase_cons_head] at hview
  exact hview

theorem receive_last (h : w.pendings t = [.fetch key])
    (hlast : ∀ page, report.page = some page → ¬ 0 < page.remaining) :
    (receive t report w).pendings t = [] ∧ (receive t report w).status t = .finished := by
  have hstep : receive t report w = (w.drop ⟨t, .fetch key⟩).setStatus t .finished := by
    simp only [receive, h, List.head?_cons, Option.elim_some, World.next, World.complete,
      LoadPaymentsTask.fetched]
    cases hpage : report.page with
    | none => rfl
    | some page => simp only [gt_iff_lt, hlast page hpage, if_false]
  have hview : (receive t report w).view t = ((w.view t).drop (.fetch key)).set .finished := by
    rw [hstep, World.view_setStatus, World.view_drop]
  constructor
  · have hpendings := congrArg View.pendings hview
    rw [View.set_pendings] at hpendings
    refine hpendings.trans ?_
    rw [View.drop]
    have herase : (w.pendings t).erase (.fetch key) = [] := by
      rw [h, List.erase_cons_head]
    exact herase
  · have hstatus := congrArg View.status hview
    rwa [View.set_status] at hstatus

theorem receive_idle (h : w.pendings t = []) : receive t report w = w := by
  simp only [receive, h, List.head?_nil, Option.elim_none]

end Steps

section Run
variable {t : ι} {reports : ℕ → Report} {w : World ι}

theorem Continues.prev {n : ℕ} (h : Continues reports (n + 1)) : Continues reports n :=
  fun i hi => h i (by omega)

theorem Continues.next {n : ℕ} (h : Continues reports n) {page : Page}
    (hpage : (reports n).page = some page) (hmore : 0 < page.remaining) :
    Continues reports (n + 1) := by
  intro i hi
  by_cases hin : i = n
  · subst hin
    exact ⟨page, hpage, hmore⟩
  · exact h i (by omega)

theorem lastKey_succ {n : ℕ} {page : Page} (h : (reports n).page = some page) :
    lastKey reports (n + 1) = page.keys.getLastD (lastKey reports n) := by
  rw [lastKey, h, Option.elim_some]

theorem pendings_first (hready : w.status t = .ready) (hnone : w.pendings t = []) :
    (LoadPaymentsTask.update t w).pendings t = [.fetch ""] := by
  have hlaunch : LoadPaymentsTask.update t w = launch t w (.fetch "") :=
    if_pos ⟨hready, rfl⟩
  have hview := congrArg View.pendings (World.view_launch w t (.fetch ""))
  rw [← hlaunch] at hview
  refine hview.trans ?_
  rw [View.launch, View.start, View.set_pendings]
  have happend : w.pendings t ++ [.fetch ""] = [.fetch ""] := by
    rw [hnone, List.nil_append]
  exact happend

/-- As long as something is left to fetch, the task waits for the page after the last key. -/
theorem pendings_replied (hready : w.status t = .ready) (hnone : w.pendings t = []) {n : ℕ}
    (h : Continues reports n) :
    (replied t reports w n).pendings t = [.fetch (lastKey reports n)] := by
  induction n with
  | zero => exact pendings_first hready hnone
  | succ n ih =>
      obtain ⟨page, hpage, hmore⟩ := h n (by omega)
      rw [lastKey_succ hpage]
      exact receive_more (ih h.prev) hpage hmore

/-- Afterwards it is finished and waits for nothing. -/
theorem finished_replied (hready : w.status t = .ready) (hnone : w.pendings t = []) {n : ℕ}
    (h : ¬ Continues reports n) :
    (replied t reports w n).pendings t = [] ∧ (replied t reports w n).status t = .finished := by
  induction n with
  | zero => exact (h fun i hi => by omega).elim
  | succ n ih =>
      by_cases hn : Continues reports n
      · apply receive_last (pendings_replied hready hnone hn)
        intro page hpage hmore
        exact h (hn.next hpage hmore)
      · have hidle := ih hn
        rw [replied, receive_idle hidle.1]
        exact hidle

/-- A request is under way only while the replies leave something to fetch. -/
theorem continues_of_pendings (hready : w.status t = .ready) (hnone : w.pendings t = []) {n : ℕ}
    {key : String} (h : (replied t reports w n).pendings t = [.fetch key]) :
    Continues reports n ∧ key = lastKey reports n := by
  by_cases hn : Continues reports n
  · rw [pendings_replied hready hnone hn] at h
    simp only [List.cons.injEq, Pending.fetch.injEq, and_true] at h
    exact ⟨hn, h.symm⟩
  · rw [(finished_replied hready hnone hn).1] at h
    cases h

/-- A page that ends with a new key takes the next request further into the history. -/
theorem following_lastKey_lt {history : List String} (hserves : Serves history reports)
    (hadvances : Advances reports) {n : ℕ} (hnext : Continues reports (n + 1)) :
    (following history (lastKey reports (n + 1))).length <
      (following history (lastKey reports n)).length := by
  obtain ⟨page, hpage, hmore⟩ := hnext n (by omega)
  apply following_lt hserves.nodup hserves.empty_notMem
  have hnew := hadvances n page hnext.prev hpage hmore
  have hsub := hserves.page n page hnext.prev hpage
  rw [lastKey_succ hpage]
  cases hkeys : page.keys.getLast? with
  | none =>
      rw [List.getLastD_eq_getLast?, hkeys] at hnew
      exact (hnew rfl).elim
  | some key =>
      rw [List.getLastD_eq_getLast?, hkeys]
      exact hsub.subset (List.mem_of_getLast? hkeys)

theorem not_continues_of_serves {history : List String} (hserves : Serves history reports)
    (hadvances : Advances reports) : ∃ n, ¬ Continues reports n := by
  by_contra hnever
  have hall : ∀ n, Continues reports n := by
    intro n
    by_contra hn
    exact hnever ⟨n, hn⟩
  have hbound : ∀ n, (following history (lastKey reports n)).length + n ≤ history.length := by
    intro n
    induction n with
    | zero => exact (following_suffix history _).length_le
    | succ n ih =>
        have hlt := following_lastKey_lt hserves hadvances (hall (n + 1))
        omega
  have := hbound (history.length + 1)
  omega

/-- The task has finished, and waits for nothing. -/
def Finishes (t : ι) (reports : ℕ → Report) (w : World ι) : Prop :=
  ∃ n, (replied t reports w n).pendings t = [] ∧ (replied t reports w n).status t = .finished

/-- No two requests in a row are for the same key, and the task finishes when the replies
name finitely many transactions, or are the pages of a history: this holds exactly when
each page that leaves something to fetch ends with a new key. -/
theorem advances_iff (t : ι) (reports : ℕ → Report) (w : World ι) (hready : w.status t = .ready)
    (hnone : w.pendings t = []) :
    ((∀ (n : ℕ) (key : String), (replied t reports w n).pendings t = [.fetch key] →
        (replied t reports w (n + 1)).pendings t ≠ [.fetch key]) ∧
      ((∃ N, ∀ n ≥ N, Continues reports n →
          ∀ page, (reports n).page = some page → page.keys = []) → Finishes t reports w) ∧
      ∀ history, Serves history reports → Finishes t reports w) ↔
      Advances reports := by
  constructor
  · intro hclaim n page hn hpage hmore hsame
    have hnext := hn.next hpage hmore
    apply hclaim.1 n _ (pendings_replied hready hnone hn)
    rw [pendings_replied hready hnone hnext, lastKey_succ hpage, hsame]
  · intro hadvances
    refine ⟨?_, ?_, ?_⟩
    · intro n key hkey hsame
      obtain ⟨hn, hkey⟩ := continues_of_pendings hready hnone hkey
      obtain ⟨hnext, hlast⟩ := continues_of_pendings hready hnone hsame
      obtain ⟨page, hpage, hmore⟩ := hnext n (by omega)
      apply hadvances n page hn hpage hmore
      rw [← lastKey_succ hpage, ← hlast, hkey]
    · intro hfinite
      obtain ⟨N, hN⟩ := hfinite
      by_contra hnever
      have hall : ∀ n, Continues reports n := by
        intro n
        by_contra hn
        exact hnever ⟨n, finished_replied hready hnone hn⟩
      obtain ⟨page, hpage, hmore⟩ := hall (N + 1) N (by omega)
      apply hadvances N page (hall N) hpage hmore
      rw [hN N (Nat.le_refl N) (hall N) page hpage]
      rfl
    · intro history hserves
      obtain ⟨n, hn⟩ := not_continues_of_serves hserves hadvances
      exact ⟨n, finished_replied hready hnone hn⟩

end Run

/-- One page with a transaction, and one that ends the history. -/
def twoPages (n : ℕ) : Report :=
  { page := some (if n = 0 then ⟨1, ["a"]⟩ else ⟨0, []⟩) }

theorem advances_twoPages : Advances twoPages := by
  intro n page _ hpage hmore
  cases n with
  | zero =>
      obtain rfl : ⟨1, ["a"]⟩ = page := Option.some.inj hpage
      decide
  | succ n =>
      obtain rfl : ⟨0, []⟩ = page := Option.some.inj hpage
      exact absurd hmore (by decide)

theorem finishes_twoPages :
    Finishes () twoPages (World.fresh fun _ : Unit => .loadPayments) := by
  have hclaim := (advances_iff () twoPages (World.fresh fun _ : Unit => .loadPayments)
    rfl rfl).mpr advances_twoPages
  apply hclaim.2.1
  refine ⟨1, fun n hn _ page hpage => ?_⟩
  have hlater : twoPages n = { page := some ⟨0, []⟩ } := by
    rw [twoPages, if_neg (by omega)]
  rw [hlater] at hpage
  obtain rfl : ⟨0, []⟩ = page := Option.some.inj hpage
  rfl

/-- An empty page that leaves something to fetch is asked for again, and again. -/
def emptyPages (_ : ℕ) : Report := { page := some ⟨1, []⟩ }

theorem asks_again :
    ¬ ∀ reports : ℕ → Report,
      (∀ (n : ℕ) (key : String),
        (replied () reports (World.fresh fun _ => .loadPayments) n).pendings () = [.fetch key] →
        (replied () reports (World.fresh fun _ => .loadPayments) (n + 1)).pendings () ≠
          [.fetch key]) ∧
      ((∃ N, ∀ n ≥ N, ∀ page, (reports n).page = some page → page.keys = []) →
        Finishes () reports (World.fresh fun _ => .loadPayments)) := by
  intro h
  have hall : ∀ n, Continues emptyPages n := fun n i _ => ⟨⟨1, []⟩, rfl, by decide⟩
  have hpendings : ∀ n, (replied () emptyPages (World.fresh fun _ => .loadPayments) n).pendings () =
      [.fetch (lastKey emptyPages n)] := fun n => pendings_replied rfl rfl (hall n)
  exact (h emptyPages).1 0 "" (hpendings 0) (hpendings 1)

end GreenWallet.Tasks.LoadPaymentsTask
