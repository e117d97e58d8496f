import DepthaiCore.Lib.Numerals
import DepthaiCore.Lib.Whiles
import Mathlib.Algebra.Field.Basic
import Mathlib.Algebra.Order.Monoid.Unbundled.WithTop
import Mathlib.Data.List.Range

/-!
# The solver of the linear assignment problem

`lapjv_internal` assigns a column to each row of a square matrix: a reduction of the columns, two
rounds of an augmenting reduction of the rows, and then shortest augmenting paths for the rows that
are still free. `execLapjv` extends a rectangular matrix to a square one and reads the assignment
off.

Arrays are functions on their indices, and an index of -1 is `none`. The arithmetic is exact.
`LARGE` is greater than all that is compared with it, so it is `⊤` where it is compared and any
number where it is subtracted. Loops without a bound have an upper limit of rounds.
-/

open scoped Numerals

namespace DepthaiCore.Lapjv

open Function (update)

/-- Why there is no assignment. -/
inductive Fault
  | runtimeError (what : String)
  /-- An index is not in its array. -/
  | outside
  deriving DecidableEq, Repr

variable {K : Type}

/-- The arrays of the solver, and the number of rows in `free_rows`. -/
structure Arrays (K : Type) where
  x : ℕ → Option ℕ
  y : ℕ → Option ℕ
  v : ℕ → K
  free_rows : ℕ → ℕ
  n_free_rows : ℕ

section Solver

variable [Field K] [LinearOrder K] (large : K) (n : ℕ) (cost : ℕ → ℕ → K)

/-! ### Column reduction and reduction transfer -/

/-- The minima of the columns so far, and the rows that have them. -/
structure Minima (K : Type) where
  v : ℕ → WithTop K
  y : ℕ → Option ℕ

/-- A comparison with the minimum of a column. -/
def reduceColumn (i : ℕ) (s : Minima K) (j : ℕ) : Minima K :=
  if cost i j < s.v j then ⟨update s.v j (cost i j), update s.y j (some i)⟩ else s

/-- The first loop of `_ccrrt_dense`. -/
def columnMinima : Minima K :=
  (List.range n).foldl (fun s i => (List.range n).foldl (reduceColumn cost i) s)
    ⟨fun _ => ⊤, fun _ => some 0⟩

/-- The columns that rows get. -/
structure Claims where
  x : ℕ → Option ℕ
  y : ℕ → Option ℕ
  unique : ℕ → Bool

/-- A row gets the last column in which it has the minimum. -/
def claimColumn (s : Claims) (j : ℕ) : Claims :=
  match s.y j with
  | none => s
  | some i =>
    match s.x i with
    | none => { s with x := update s.x i (some j) }
    | some _ => { s with unique := update s.unique i true, y := update s.y j none }

/-- The second loop. `unique` is set to one, and to one again. -/
def claims (y : ℕ → Option ℕ) : Claims :=
  (List.range n).reverse.foldl claimColumn ⟨fun _ => none, y, fun _ => true⟩

/-- The least reduced cost of a row in the columns other than `j`. -/
def leastOther (v : ℕ → K) (i j : ℕ) : WithTop K :=
  (List.range n).foldl (fun (least : WithTop K) j2 =>
    let c := cost i j2 - v j2
    if j2 = j then least else if c < least then c else least) ⊤

/-- The prices and the free rows. -/
structure Transfer (K : Type) where
  v : ℕ → K
  free_rows : ℕ → ℕ
  n_free_rows : ℕ

/-- A round of the third loop. -/
def transferRow (c : Claims) (s : Transfer K) (i : ℕ) : Transfer K :=
  match c.x i with
  | none => { s with
      free_rows := update s.free_rows s.n_free_rows i
      n_free_rows := s.n_free_rows + 1 }
  | some j =>
    if c.unique i then
      { s with v := update s.v j (s.v j - (leastOther n cost s.v i j).untopD large) }
    else s

/-- **`_ccrrt_dense`.** -/
def ccrrt_dense : Arrays K :=
  let s := columnMinima n cost
  let c := claims n s.y
  let t := (List.range n).foldl (transferRow large n cost c)
    ⟨fun j => (s.v j).untopD large, fun _ => 0, 0⟩
  ⟨c.x, c.y, t.v, t.free_rows, t.n_free_rows⟩

/-! ### Augmenting row reduction -/

/-- The two smallest reduced costs of a row. -/
structure TwoSmallest (K : Type) where
  j1 : ℕ
  v1 : K
  j2 : Option ℕ
  v2 : WithTop K

/-- A comparison with the two smallest. -/
def smaller (v : ℕ → K) (i : ℕ) (s : TwoSmallest K) (j : ℕ) : TwoSmallest K :=
  let c := cost i j - v j
  if c < s.v2 then
    if c ≥ s.v1 then { s with v2 := c, j2 := some j }
    else ⟨j, c, some s.j1, s.v1⟩
  else s

/-- The inner loop of `_carr_dense`. -/
def twoSmallest (v : ℕ → K) (i : ℕ) : TwoSmallest K :=
  (List.range' 1 (n - 1)).foldl (smaller cost v i) ⟨0, cost i 0 - v 0, none, ⊤⟩

/-- The state of `_carr_dense`. -/
structure RowReduction (K : Type) where
  current : ℕ
  new_free_rows : ℕ
  rr_cnt : ℕ
  x : ℕ → Option ℕ
  y : ℕ → Option ℕ
  v : ℕ → K
  free_rows : ℕ → ℕ

/-- A row that loses its column is free again, from the next round on. -/
def RowReduction.release (s : RowReduction K) : Option ℕ → RowReduction K
  | none => s
  | some i0 => { s with
      free_rows := update s.free_rows s.new_free_rows i0
      new_free_rows := s.new_free_rows + 1 }

/-- A row that loses its column is the next one to look at. -/
def RowReduction.again (s : RowReduction K) : Option ℕ → RowReduction K
  | none => s
  | some i0 => { s with
      free_rows := update s.free_rows (s.current - 1) i0
      current := s.current - 1 }

/-- A row gets a column. -/
def RowReduction.assign (s : RowReduction K) (i j : ℕ) : RowReduction K :=
  { s with x := update s.x i (some j), y := update s.y j (some i) }

/-- A round of `_carr_dense`. -/
def reduceRow (s : RowReduction K) : RowReduction K :=
  let free_i := s.free_rows s.current
  let s := { s with rr_cnt := s.rr_cnt + 1, current := s.current + 1 }
  let m := twoSmallest n cost s.v free_i
  let i0 := s.y m.j1
  let v1_new := s.v m.j1 - (m.v2.untopD large - m.v1)
  if s.rr_cnt < s.current * n then
    if v1_new < s.v m.j1 then
      ({ s with v := update s.v m.j1 v1_new }.again i0).assign free_i m.j1
    else
      match i0, m.j2 with
      | some _, some j2 => (s.release (s.y j2)).assign free_i j2
      | _, _ => (s.release i0).assign free_i m.j1
  else (s.release i0).assign free_i m.j1

/-- The loop goes on as long as there are rows left. -/
def carrRound (n_free_rows : ℕ) (s : RowReduction K) :
    Except (Stop Fault) (RowReduction K ⊕ RowReduction K) :=
  if s.current < n_free_rows then .ok (.inl (reduceRow large n cost s)) else .ok (.inr s)

/-- **`_carr_dense`.** -/
def carr_dense (fuel : ℕ) (a : Arrays K) : Except (Stop Fault) (Arrays K) := do
  let s ← Whiles.loop (carrRound large n cost a.n_free_rows) fuel
    ⟨0, 0, 0, a.x, a.y, a.v, a.free_rows⟩
  return ⟨s.x, s.y, s.v, s.free_rows, s.new_free_rows⟩

/-! ### Shortest augmenting paths -/

/-- The arrays of a search. -/
structure Search (K : Type) where
  cols : ℕ → ℕ
  d : ℕ → K
  pred : ℕ → ℕ

/-- The columns at two places change their places. -/
def exchange (cols : ℕ → ℕ) (k hi : ℕ) : ℕ → ℕ :=
  update (update cols k (cols hi)) hi (cols k)

/-- The columns that are closest so far. -/
structure Closest (K : Type) where
  hi : ℕ
  mind : K
  cols : ℕ → ℕ

/-- A round of `_find_dense`. -/
def findColumn (lo : ℕ) (d : ℕ → K) (s : Closest K) (k : ℕ) : Closest K :=
  let j := s.cols k
  if d j ≤ s.mind then
    let s := if d j < s.mind then { s with hi := lo, mind := d j } else s
    { s with cols := exchange s.cols k s.hi, hi := s.hi + 1 }
  else s

/-- `_find_dense`. -/
def find_dense (lo : ℕ) (d : ℕ → K) (cols : ℕ → ℕ) : Closest K :=
  (List.range' (lo + 1) (n - (lo + 1))).foldl (findColumn lo d) ⟨lo + 1, d (cols lo), cols⟩

variable (y : ℕ → Option ℕ) (v : ℕ → K)

/-- The inner loop of `_scan_dense` returns early, with a column, or it goes on. -/
structure Scan (K : Type) extends Search K where
  hi : ℕ

/-- A round of it, for the column that row `i` has. -/
def scanColumn (i : ℕ) (h mind : K) (s : Scan K) (k : ℕ) : Except (ℕ × Search K) (Scan K) :=
  let j := s.cols k
  let cred_ij := cost i j - v j - h
  if cred_ij < s.d j then
    let s := { s with d := update s.d j cred_ij, pred := update s.pred j i }
    if cred_ij = mind then
      if y j = none then .error (j, s.toSearch)
      else .ok { s with cols := exchange s.cols k s.hi, hi := s.hi + 1 }
    else .ok s
  else .ok s

/-- The state of the loop of `_scan_dense`. -/
structure Scanning (K : Type) extends Scan K where
  lo : ℕ

/-- A round: the column at `lo` is scanned. -/
def scanRound (s : Scanning K) :
    Except (Stop Fault) (Scanning K ⊕ Option ℕ × Scanning K) :=
  if s.lo = s.hi then .ok (.inr (none, s))
  else
    let j := s.cols s.lo
    match y j with
    | none => .error (.throws .outside)
    | some i =>
      let mind := s.d j
      let h := cost i j - v j - mind
      match (List.range' s.hi (n - s.hi)).foldlM (scanColumn cost y v i h mind) s.toScan with
      | .error (j, found) => .ok (.inr (some j, { s with toSearch := found }))
      | .ok scan => .ok (.inl { toScan := scan, lo := s.lo + 1 })

/-- The state of `find_path_dense`. -/
structure Path (K : Type) extends Search K where
  lo : ℕ
  hi : ℕ
  n_ready : ℕ
  final_j : Option ℕ

/-- The part without columns on the SCAN list. -/
def findStep (s : Path K) : Path K :=
  if s.lo = s.hi then
    let found := find_dense n s.lo s.d s.cols
    { s with
      n_ready := s.lo
      hi := found.hi
      cols := found.cols
      final_j := (List.range' s.lo (found.hi - s.lo)).foldl (fun final_j k =>
        if y (found.cols k) = none then some (found.cols k) else final_j) s.final_j }
  else s

/-- `_scan_dense`. If it returns early, `lo` and `hi` stay. -/
def scanStep (fuel : ℕ) (s : Path K) : Except (Stop Fault) (Path K) := do
  let (final_j, scanned) ← Whiles.loop (scanRound n cost y v) fuel
    { toSearch := s.toSearch, hi := s.hi, lo := s.lo }
  match final_j with
  | some j => return { s with toSearch := scanned.toSearch, final_j := some j }
  | none => return { s with toSearch := scanned.toSearch, lo := scanned.lo, hi := scanned.hi }

/-- A round of `find_path_dense`. -/
def pathRound (fuel : ℕ) (s : Path K) : Except (Stop Fault) (Path K ⊕ ℕ × Path K) :=
  match s.final_j with
  | some j => .ok (.inr (j, s))
  | none => do
    let s := findStep n y s
    if s.final_j = none then return .inl (← scanStep n cost y v fuel s) else return .inl s

/-- **`find_path_dense`:** the closest free column, the prices and the predecessors. -/
def find_path_dense (fuel start_i : ℕ) : Except (Stop Fault) (ℕ × (ℕ → K) × (ℕ → ℕ)) := do
  let (final_j, s) ← Whiles.loop (pathRound n cost y v fuel) fuel
    { cols := fun i => i
      pred := fun _ => start_i
      d := fun i => cost start_i i - v i
      lo := 0
      hi := 0
      n_ready := 0
      final_j := none }
  let mind := s.d (s.cols s.lo)
  let v := (List.range s.n_ready).foldl
    (fun v k => update v (s.cols k) (v (s.cols k) + (s.d (s.cols k) - mind))) v
  return (final_j, v, s.pred)

/-- The state of the loop along a path. -/
structure Augmenting where
  i : Option ℕ
  j : Option ℕ
  x : ℕ → Option ℕ
  y : ℕ → Option ℕ

/-- A round of it. -/
def augmentRound (pred : ℕ → ℕ) (free_i : ℕ) (s : Augmenting) :
    Except (Stop Fault) (Augmenting ⊕ Augmenting) :=
  if s.i = some free_i then .ok (.inr s)
  else
    match s.j with
    | none => .error (.throws .outside)
    | some j =>
      let i := pred j
      .ok (.inl ⟨some i, s.x i, update s.x i (some j), update s.y j (some i)⟩)

/-- A round of `_ca_dense`, for a free row. -/
def augmentRow (fuel : ℕ) (a : Arrays K) (k : ℕ) : Except (Stop Fault) (Arrays K) := do
  let free_i := a.free_rows k
  let (final_j, v, pred) ← find_path_dense n cost a.y a.v fuel free_i
  let s ← Whiles.loop (augmentRound pred free_i) fuel ⟨none, some final_j, a.x, a.y⟩
  return { a with x := s.x, y := s.y, v }

/-- **`_ca_dense`.** -/
def ca_dense (fuel : ℕ) (a : Arrays K) : Except (Stop Fault) (Arrays K) :=
  (List.range a.n_free_rows).foldlM (augmentRow n cost fuel) a

/-! ### The solver -/

/-- **`lapjv_internal`:** what it returns, and the two arrays. -/
def lapjv_internal (fuel : ℕ) : Except (Stop Fault) (ℕ × (ℕ → Option ℕ) × (ℕ → Option ℕ)) := do
  let a ← (List.range 2).foldlM
    (fun a _ => if 0 < a.n_free_rows then carr_dense large n cost fuel a else .ok a)
    (ccrrt_dense large n cost)
  if 0 < a.n_free_rows then
    let a ← ca_dense n cost fuel a
    return (0, a.x, a.y)
  else return (a.n_free_rows, a.x, a.y)

/-! ### Rectangular matrices -/

/-- `cost_limit` unless it is the greatest number there is. -/
def filler (cost_c : List (List K)) (cost_limit : Option K) : K :=
  match cost_limit with
  | some limit => limit / 2
  | none => cost_c.flatten.foldl (fun cost_max c => if c > cost_max then c else cost_max) (-1) + 1

/-- The extended matrix. -/
def extend (cost_c : List (List K)) (n_rows n_cols : ℕ) (cost_limit : Option K) (i j : ℕ) : K :=
  if i < n_rows ∧ j < n_cols then (cost_c.getD i []).getD j 0
  else if n_rows ≤ i ∧ n_cols ≤ j then 0
  else filler cost_c cost_limit

/-- The part of an assignment that is below a bound. -/
def cut (bound : ℕ) : Option ℕ → Option ℕ
  | none => none
  | some j => if j ≥ bound then none else some j

/-- The sum of the costs of the rows; a row without a column is skipped if there are such. -/
def total (skip : Bool) (rowsol : List (Option ℕ)) : Except Fault K :=
  rowsol.zipIdx.foldlM (fun opt (j, i) =>
    match j with
    | none => if skip then .ok opt else .error .outside
    | some j => if j < n then .ok (opt + cost i j) else .error .outside) 0

/-- **`execLapjv`:** the two vectors, and the sum of the costs. There is no limit for the costs if
`cost_limit` is the greatest number. The vectors come with what the caller has in them. -/
def execLapjv (fuel : ℕ) (cost : List (List K)) (rowsol colsol : List (Option ℕ))
    (extend_cost : Bool) (cost_limit : Option K) (return_cost : Bool) :
    Except (Stop Fault) (List (Option ℕ) × List (Option ℕ) × K) := do
  let n_rows := cost.length
  let n_cols := (cost.getD 0 []).length
  let rowsol := rowsol.takeD n_rows (some 0)
  let colsol := colsol.takeD n_cols (some 0)
  if n_rows ≠ n_cols ∧ !extend_cost then
    .error (.throws (.runtimeError "The `extend_cost` variable should set True"))
  else
    let extended := extend_cost ∨ cost_limit.isSome
    let n := if extended then n_rows + n_cols else n_rows
    let cost_ptr (i j : ℕ) : K :=
      if extended then extend cost n_rows n_cols cost_limit i j else (cost.getD i []).getD j 0
    let (ret, x_c, y_c) ← lapjv_internal large n cost_ptr fuel
    if ret ≠ 0 then
      .error (.throws (.runtimeError "The result of lapjv_internal() is invalid."))
    else if n ≠ n_rows then
      let rowsol := (List.range n_rows).map fun i => cut n_cols (x_c i)
      let colsol := (List.range n_cols).map fun j => cut n_rows (y_c j)
      let opt ← Stop.lift (if return_cost then total n cost_ptr true rowsol else .ok 0)
      return (rowsol, colsol, opt)
    else
      let opt ← Stop.lift (if return_cost then total n cost_ptr false rowsol else .ok 0)
      return (rowsol, colsol, opt)

end Solver

end DepthaiCore.Lapjv
