import GreenWallet.Library.Csv

/-!
# Exported transactions and addresses

A table is written as its values with commas and line feeds between them. The values are
written as they are, but for the memo of a transaction, which loses its own.
-/
namespace GreenWallet.Accounts.Export
open GreenWallet.Library.Csv

structure Network where
  displayName : Text
  policyAsset : Text

structure Asset where
  id : Text
  precision : ℤ
  ticker : Text

/-- The time is in microseconds. -/
structure TransactionData where
  block_height : ℤ
  satoshi : List (Text × ℤ)
  created_at_ts : ℤ
  type : Text
  fee : ℤ
  txhash : Text
  memo : Text

structure Transaction where
  network : Network
  /-- The name of the account. -/
  account : Text
  data : TransactionData

structure Address where
  network : Network
  account : Text
  address : Text
  tx_count : ℤ

/-- What the wallet, its session and the platform bring to an export. -/
structure Wallet where
  display_unit : Text
  /-- The key that `convert` has for the unit of the session. -/
  unit : Text
  mainnet : Bool
  currency : Text
  exchange : Text
  /-- The time of the export. -/
  datetime : Text
  id_main_account : Text
  getOrCreateAsset : Text → Asset
  /-- The value that a number of satoshi has under a key. -/
  convert : ℤ → Text → Text
  /-- An amount with a precision in decimal notation. -/
  number : ℤ → ℤ → Text
  /-- A time in milliseconds as text. -/
  isoDate : ℤ → Text

/-- The name of an account, or that of the main account. -/
def Wallet.accountName (w : Wallet) (name : Text) : Text :=
  if name = [] then w.id_main_account else name

def replace (before after : Char) (s : Text) : Text :=
  s.map fun c => if c = before then after else c

namespace TransactionModel
variable (w : Wallet)

def fee_field : Text := "fee (".toList ++ w.display_unit ++ ")".toList

def fiat_field : Text :=
  "fiat (".toList ++ (if w.mainnet then w.currency else "FIAT".toList) ++ " ".toList ++
    w.exchange ++ " ".toList ++ w.datetime ++ ")".toList

def fields : List Text :=
  ["time".toList, "network".toList, "account".toList, "description".toList, "amount".toList,
    "unit".toList, fee_field w, fiat_field w, "txhash".toList, "memo".toList]

/-- An asset with a precision and a ticker of its own. -/
def isOther (t : Transaction) (asset : Asset) : Bool := asset.id ≠ t.network.policyAsset

def amount (t : Transaction) (asset : Asset) (satoshi : ℤ) : Text :=
  if isOther t asset then w.number satoshi asset.precision else w.convert satoshi w.unit

def memo (t : Transaction) : Text := replace ',' '-' (replace '\n' ' ' t.data.memo)

/-- The value of a field; there are no other fields than these. -/
def value (t : Transaction) (asset : Asset) (satoshi : ℤ) (field : Text) : Text :=
  if field = "network".toList then t.network.displayName
  else if field = "account".toList then w.accountName t.account
  else if field = "time".toList then w.isoDate (t.data.created_at_ts.tdiv 1000)
  else if field = "description".toList then t.data.type
  else if field = "amount".toList then amount w t asset satoshi
  else if field = "unit".toList then (if isOther t asset then asset.ticker else w.display_unit)
  else if field = fee_field w then
    (if t.data.type = "outgoing".toList then w.convert t.data.fee w.unit else [])
  else if field = fiat_field w then
    (if isOther t asset then [] else w.convert satoshi "fiat".toList)
  else if field = "txhash".toList then t.data.txhash
  else memo t

/-- A transaction that is in a block has a row for each asset. -/
def rows (transactions : List Transaction) : List (List Text) :=
  (transactions.filter fun t => t.data.block_height ≠ 0).flatMap fun t =>
    t.data.satoshi.map fun entry =>
      (fields w).map (value w t (w.getOrCreateAsset entry.1) entry.2)

def exportToFile (transactions : List Transaction) : Text :=
  write (fields w :: rows w transactions)

end TransactionModel

namespace AddressModel
variable (w : Wallet)

def fields : List Text :=
  ["network".toList, "account".toList, "address".toList, "tx_count".toList]

def rows (addresses : List Address) : List (List Text) :=
  addresses.map fun a =>
    [a.network.displayName, w.accountName a.account, a.address, (toString a.tx_count).toList]

def exportToFile (addresses : List Address) : Text := write (fields :: rows w addresses)

end AddressModel

/-- One of the two exports. -/
inductive Exported where
  | transactions (w : Wallet) (transactions : List Transaction)
  | addresses (w : Wallet) (addresses : List Address)

namespace Exported

def fields : Exported → List Text
  | transactions w _ => TransactionModel.fields w
  | addresses _ _ => AddressModel.fields

def rows : Exported → List (List Text)
  | transactions w ts => TransactionModel.rows w ts
  | addresses w as => AddressModel.rows w as

def file : Exported → Text
  | transactions w ts => TransactionModel.exportToFile w ts
  | addresses w as => AddressModel.exportToFile w as

theorem file_eq_write (x : Exported) : x.file = write (x.fields :: x.rows) := by
  cases x <;> rfl

/-- A row has a value for each field. -/
theorem length_of_mem_rows {x : Exported} {row : List Text} (h : row ∈ x.rows) :
    row.length = x.fields.length := by
  cases x with
  | transactions w ts =>
      obtain ⟨t, -, hrow⟩ := List.mem_flatMap.mp h
      obtain ⟨entry, -, rfl⟩ := List.mem_map.mp hrow
      exact List.length_map _
  | addresses w as =>
      obtain ⟨a, -, rfl⟩ := List.mem_map.mp h
      rfl

theorem not_mem_replace {before after : Char} (h : before ≠ after) (s : Text) :
    before ∉ replace before after s := by
  rw [replace, List.mem_map]
  rintro ⟨c, -, hc⟩
  split_ifs at hc with hbefore
  · exact h hc.symm
  · exact hbefore hc

/-- The memo has no comma and no line feed of its own. -/
theorem not_mem_memo (t : Transaction) :
    ',' ∉ TransactionModel.memo t ∧ '\n' ∉ TransactionModel.memo t := by
  refine ⟨not_mem_replace (by decide) _, ?_⟩
  rw [TransactionModel.memo, replace, List.mem_map]
  rintro ⟨c, hc, hfeed⟩
  split_ifs at hfeed with hcomma
  · exact absurd hfeed (by decide)
  · subst hfeed
    exact not_mem_replace (by decide) _ hc

theorem value_memo (w : Wallet) (t : Transaction) (asset : Asset) (satoshi : ℤ) :
    TransactionModel.value w t asset satoshi "memo".toList = TransactionModel.memo t := by
  have hmemo : "memo".toList.head? = some 'm' := by decide
  have hfee : (TransactionModel.fee_field w).head? = some 'f' := rfl
  have hfiat : (TransactionModel.fiat_field w).head? = some 'f' := rfl
  have hnotFee : "memo".toList ≠ TransactionModel.fee_field w := by
    intro h
    rw [h, hfee] at hmemo
    exact absurd hmemo (by decide)
  have hnotFiat : "memo".toList ≠ TransactionModel.fiat_field w := by
    intro h
    rw [h, hfiat] at hmemo
    exact absurd hmemo (by decide)
  unfold TransactionModel.value
  rw [if_neg (by decide), if_neg (by decide), if_neg (by decide), if_neg (by decide),
    if_neg (by decide), if_neg (by decide), if_neg hnotFee, if_neg hnotFiat, if_neg (by decide)]

/-- A number is written in digits, after its sign. -/
theorem lineFeed_not_mem_number (i : ℤ) : '\n' ∉ (toString i).toList := by
  have hdigits : ∀ n : ℕ, '\n' ∉ (Nat.repr n).toList := by
    intro n hfeed
    rw [Nat.toList_repr] at hfeed
    exact absurd (Nat.isDigit_of_mem_toDigits (by decide) (by decide) hfeed) (by decide)
  cases i with
  | ofNat n => exact hdigits n
  | negSucc n =>
      have hrepr : toString (Int.negSucc n) = "-" ++ Nat.repr (n + 1) := rfl
      rw [hrepr, String.toList_append, List.mem_append]
      rintro (hsign | hdigit)
      · exact absurd hsign (by decide)
      · exact hdigits (n + 1) hdigit

/-- The last value of every line is without a line feed. -/
theorem lineFeed_not_mem_last (x : Exported) :
    ∀ line ∈ x.fields :: x.rows, ∀ s ∈ line.getLast?, '\n' ∉ s := by
  intro line hline s hs
  cases x with
  | transactions w ts =>
      rcases List.mem_cons.mp hline with rfl | hrow
      · obtain rfl : "memo".toList = s := Option.some.inj hs
        decide
      · obtain ⟨t, -, hrow⟩ := List.mem_flatMap.mp hrow
        obtain ⟨entry, -, rfl⟩ := List.mem_map.mp hrow
        have hlast : TransactionModel.value w t (w.getOrCreateAsset entry.1) entry.2
            "memo".toList = s := Option.some.inj hs
        rw [value_memo] at hlast
        rw [← hlast]
        exact (not_mem_memo t).2
  | addresses w as =>
      rcases List.mem_cons.mp hline with rfl | hrow
      · obtain rfl : "tx_count".toList = s := Option.some.inj hs
        decide
      · obtain ⟨a, -, rfl⟩ := List.mem_map.mp hrow
        obtain rfl : (toString a.tx_count).toList = s := Option.some.inj hs
        exact lineFeed_not_mem_number a.tx_count

theorem one_lt_length_fields (x : Exported) : 1 < x.fields.length := by
  cases x <;> exact Nat.one_lt_succ_succ _

theorem regular {x : Exported} (hclosed : ∀ line ∈ x.fields :: x.rows, ∀ s ∈ line, Closed s) :
    ∀ line ∈ x.fields :: x.rows, Regular line := by
  intro line hline
  refine ⟨hclosed line hline, ?_, lineFeed_not_mem_last x line hline⟩
  have hfields := one_lt_length_fields x
  rcases List.mem_cons.mp hline with rfl | hrow
  · exact hfields
  · rwa [length_of_mem_rows hrow]

/-- Among values that leave no quotation open, an export keeps its columns exactly when no
value has a line break outside of quotations, up to a carriage return at the very end of a
line, and the values of every row have as many commas there as the fields of the header. -/
theorem keepsColumns_iff (x : Exported)
    (hclosed : ∀ line ∈ x.fields :: x.rows, ∀ s ∈ line, Closed s) :
    KeepsColumns x.file x.rows.length ↔
      (∀ line ∈ x.fields :: x.rows, ∀ s ∈ values line, .record ∉ marks s) ∧
        ∀ row ∈ x.rows, bareCommas row = bareCommas x.fields := by
  rw [file_eq_write]
  exact write_keepsColumns_iff (fun _ => length_of_mem_rows) (regular hclosed)

def wallet : Wallet where
  display_unit := "BTC".toList
  unit := "btc".toList
  mainnet := true
  currency := "USD".toList
  exchange := "BITFINEX".toList
  datetime := "2024-05-01T12:00:00".toList
  id_main_account := "Main Account".toList
  getOrCreateAsset id := { id, precision := 0, ticker := [] }
  convert satoshi _ := (toString satoshi).toList
  number amount _ := (toString amount).toList
  isoDate msecs := (toString msecs).toList

def bitcoin : Network where
  displayName := "Bitcoin".toList
  policyAsset := "btc".toList

theorem keepsColumns_memo : KeepsColumns (file (transactions wallet
    [{ network := bitcoin
       account := "Joint \"savings\"".toList
       data :=
        { block_height := 800000
          satoshi := [("btc".toList, 1500)]
          created_at_ts := 1690000000000000
          type := "incoming".toList
          fee := 200
          txhash := "ab".toList
          memo := "rent, may\nand june".toList } }])) 1 :=
  (keepsColumns_iff _ (by decide +kernel)).mpr (by decide +kernel)

/-- An account whose name has a comma. -/
theorem not_keepsColumns_comma : ¬ ∀ x : Exported, KeepsColumns x.file x.rows.length := by
  intro h
  have hread : read (file (addresses wallet
      [{ network := bitcoin
         account := "Savings, joint".toList
         address := "bc1q".toList
         tx_count := 3 }])) =
      [["network".toList, "account".toList, "address".toList, "tx_count".toList],
        ["Bitcoin".toList, "Savings".toList, " joint".toList, "bc1q".toList, "3".toList]] := by
    decide +kernel
  obtain ⟨header, records, hsplit, -, hlength⟩ := h (addresses wallet _)
  rw [hread] at hsplit
  obtain ⟨rfl, rfl⟩ := List.cons.inj hsplit
  exact absurd (hlength _ List.mem_cons_self) (by decide)

end Exported

end GreenWallet.Accounts.Export
