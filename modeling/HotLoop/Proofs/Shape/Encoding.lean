import Mathlib
import HotLoop.Proofs.Syntax.Rename
import HotLoop.Proofs.Memory.Word
/-!
# HotLoop.Proofs.Shape.Encoding

The bytes of the canonical encoding as a function of the tree alone.

The encoder (`Canon`) numbers variables as it meets them and appends bytes
to a buffer. Once the encoding is over, the number of every variable is its
place in the final table of names, so the buffer is `code ι` of the tree,
where `ι n` is the index of `n` in that table (`Canon.stmt_bytes`). The
numbering order does not matter for the bytes, only the numbers do.

`code` is uniquely readable: every node starts with its tag, varints end at
the first byte below 128, words are eight bytes long and call names carry
their length. So two trees with the same code, read with index functions
`ι₁` and `ι₂`, have the same structure and literals, and variables in the
same places with the same numbers (`Stmt.rename_eq_of_code`).
-/

namespace HotLoop

/-! ## Varints and words -/

/-- The bytes `pushVarint` appends: seven bits a byte, low bits first, the
high bit set on every byte but the last. -/
def varintBytes (n : Nat) : List UInt8 :=
  if n < 128 then [n.toUInt8] else (n % 128 + 128).toUInt8 :: varintBytes (n / 128)
termination_by n
decreasing_by omega

/-- Read a varint off the front of a byte list. -/
def readVarint : List UInt8 → Option (Nat × List UInt8)
  | [] => none
  | b :: rest =>
    if b.toNat < 128 then some (b.toNat, rest)
    else (readVarint rest).map fun (m, r) => (b.toNat - 128 + 128 * m, r)

/-- A varint reads back as its number, leaving what follows it. -/
theorem readVarint_varintBytes (n : Nat) (rest : List UInt8) :
    readVarint (varintBytes n ++ rest) = some (n, rest) := by
  induction n using Nat.strongRecOn with
  | ind n ih =>
    rw [varintBytes]
    split
    · rename_i hn
      have hb : n.toUInt8.toNat = n := by simp; omega
      simp [readVarint, hb, hn]
    · rename_i hn
      have hb : (n % 128 + 128).toUInt8.toNat = n % 128 + 128 := by simp; omega
      simp only [List.cons_append, readVarint, hb, ih (n / 128) (by omega)]
      simp only [show ¬(n % 128 + 128 < 128) by omega, ite_false, Option.map_some,
        Option.some.injEq, Prod.mk.injEq, and_true]
      omega

/-- Varints are prefix-free: a varint followed by anything determines both. -/
theorem varintBytes_append_inj {a b : Nat} {r r' : List UInt8}
    (h : varintBytes a ++ r = varintBytes b ++ r') : a = b ∧ r = r' := by
  have hr := congrArg readVarint h
  simp only [readVarint_varintBytes, Option.some.injEq, Prod.mk.injEq] at hr
  exact hr

theorem pushVarint_data (b : ByteArray) (n : Nat) :
    (pushVarint b n).data.toList = b.data.toList ++ varintBytes n := by
  induction n using Nat.strongRecOn generalizing b with
  | ind n ih =>
    rw [pushVarint, varintBytes]
    split
    · simp [ByteArray.data_push]
    · rw [ih (n / 128) (by omega)]
      simp [ByteArray.data_push]

/-- The eight little-endian bytes of a word. -/
def wordBytes (w : UInt64) : List UInt8 :=
  (List.range 8).map fun k => (w >>> (8 * k).toUInt64).toUInt8

@[simp] theorem length_wordBytes (w : UInt64) : (wordBytes w).length = 8 := by
  simp [wordBytes]

/-- The eight bytes of a word determine it. -/
theorem wordBytes_inj {a b : UInt64} (h : wordBytes a = wordBytes b) : a = b := by
  apply UInt64.toNat_inj.mp
  have hdigits := congrArg (List.map UInt8.toNat) h
  simp only [wordBytes, List.map_map, Function.comp_def] at hdigits
  rw [← ofDigits_bytes a, ← ofDigits_bytes b, hdigits]

/-- A word followed by anything determines both. -/
theorem wordBytes_append_inj {a b : UInt64} {r r' : List UInt8}
    (h : wordBytes a ++ r = wordBytes b ++ r') : a = b ∧ r = r' := by
  obtain ⟨hw, hr⟩ := List.append_inj h (by simp)
  exact ⟨wordBytes_inj hw, hr⟩

theorem foldl_push_data {α : Type} (f : α → UInt8) (l : List α) (b : ByteArray) :
    (l.foldl (fun b k => b.push (f k)) b).data.toList = b.data.toList ++ l.map f := by
  induction l generalizing b with
  | nil => simp
  | cons k l ih => simp [ih, ByteArray.data_push]

theorem pushWord_data (b : ByteArray) (w : UInt64) :
    (pushWord b w).data.toList = b.data.toList ++ wordBytes w :=
  foldl_push_data _ _ b

/-! ## The code of a tree -/

mutual
/-- The bytes of an expression when variable `n` has number `ι n`. -/
def Expr.code (ι : String → Nat) : Expr → List UInt8
  | .int _ n => Tag.intLit.byte :: wordBytes n.toUInt64
  | .float _ x => Tag.floatLit.byte :: wordBytes x.bits
  | .bool _ b => [Tag.boolLit.byte, if b then 1 else 0]
  | .array _ es => Tag.arrayLit.byte :: (varintBytes es.length ++ Expr.codeAll ι es)
  | .ident _ n => Tag.ident.byte :: varintBytes (ι n)
  | .binary _ op x y => Tag.binary.byte :: op.code :: (x.code ι ++ y.code ι)
  | .unary _ op x => Tag.unary.byte :: op.code :: x.code ι
  | .index _ x i => Tag.index.byte :: (x.code ι ++ i.code ι)
  | .call _ f args =>
    Tag.call.byte :: (varintBytes f.utf8ByteSize ++
      (f.toUTF8.data.toList ++ (varintBytes args.length ++ Expr.codeAll ι args)))

/-- The bytes of expressions one after the other. -/
def Expr.codeAll (ι : String → Nat) : List Expr → List UInt8
  | [] => []
  | e :: es => e.code ι ++ Expr.codeAll ι es
end

/-- The bytes of an optional expression: the tag `absent` for none. -/
def Expr.codeOpt (ι : String → Nat) : Option Expr → List UInt8
  | none => [Tag.absent.byte]
  | some e => e.code ι

mutual
/-- The bytes of a statement when variable `n` has number `ι n`. A written
name comes after the value written, a block is its length and then its
statements. -/
def Stmt.code (ι : String → Nat) : Stmt → List UInt8
  | .declare _ n v => Tag.declare.byte :: (v.code ι ++ varintBytes (ι n))
  | .assign _ n v => Tag.assign.byte :: (v.code ι ++ varintBytes (ι n))
  | .compound _ n op v => Tag.compound.byte :: op.code :: (v.code ι ++ varintBytes (ι n))
  | .step _ n down => Tag.step.byte :: (if down then 1 else 0) :: varintBytes (ι n)
  | .cond _ c t e =>
    Tag.cond.byte :: (c.code ι ++ (varintBytes t.length ++ (Stmt.codeAll ι t ++
      (varintBytes e.length ++ Stmt.codeAll ι e))))
  | .brk _ => [Tag.brk.byte]
  | .cont _ => [Tag.cont.byte]
  | .ret _ v => Tag.ret.byte :: Expr.codeOpt ι v
  | .eval _ x => Tag.eval.byte :: x.code ι
  | .loop _ _ (.range v a b s) body =>
    Tag.range.byte :: (varintBytes (ι v) ++ (a.code ι ++ (b.code ι ++ (Expr.codeOpt ι s ++
      (varintBytes body.length ++ Stmt.codeAll ι body)))))
  | .loop _ _ (.cond c) body =>
    Tag.whileLoop.byte :: (c.code ι ++ (varintBytes body.length ++ Stmt.codeAll ι body))
  | .loop _ _ (.each v coll) body =>
    Tag.each.byte :: (varintBytes (ι v) ++ (coll.code ι ++
      (varintBytes body.length ++ Stmt.codeAll ι body)))

/-- The bytes of statements one after the other. -/
def Stmt.codeAll (ι : String → Nat) : List Stmt → List UInt8
  | [] => []
  | s :: ss => s.code ι ++ Stmt.codeAll ι ss
end

/-! ## The encoder's buffer is the code -/

theorem List.idxOf_of_prefix {L T : List String} {n : String} (hp : L <+: T) (hn : n ∈ L) :
    T.idxOf n = L.idxOf n := by
  obtain ⟨R, rfl⟩ := hp
  exact List.idxOf_append_of_mem hn

theorem Array.idxOf?_eq_toList (xs : Array String) (a : String) :
    xs.idxOf? a = xs.toList.idxOf? a := by
  cases xs; simp

theorem List.idxOf?_of_mem {l : List String} {a : String} (h : a ∈ l) :
    l.idxOf? a = some (l.idxOf a) := by
  induction l with
  | nil => simp at h
  | cons x xs ih =>
    simp only [List.idxOf?_cons, List.idxOf_cons]
    by_cases hx : x = a
    · simp [hx]
    · have hb : (x == a) = false := by simpa using hx
      have hxs : a ∈ xs := by simp at h; tauto
      simp [hb, ih hxs]

namespace Canon

variable (c : Canon)

@[simp] theorem tag_names (t : Tag) : (c.tag t).names = c.names := rfl
@[simp] theorem byte_names (b : UInt8) : (c.byte b).names = c.names := rfl
@[simp] theorem varint_names (n : Nat) : (c.varint n).names = c.names := rfl
@[simp] theorem word_names (w : UInt64) : (c.word w).names = c.names := rfl

@[simp] theorem tag_bytes (t : Tag) :
    (c.tag t).bytes.data.toList = c.bytes.data.toList ++ [t.byte] := by
  simp [tag, ByteArray.data_push]

@[simp] theorem byte_bytes (b : UInt8) :
    (c.byte b).bytes.data.toList = c.bytes.data.toList ++ [b] := by
  simp [byte, ByteArray.data_push]

@[simp] theorem varint_bytes (n : Nat) :
    (c.varint n).bytes.data.toList = c.bytes.data.toList ++ varintBytes n :=
  pushVarint_data _ _

@[simp] theorem word_bytes (w : UInt64) :
    (c.word w).bytes.data.toList = c.bytes.data.toList ++ wordBytes w :=
  pushWord_data _ _

/-- Numbering a name already in the table returns its index and changes
nothing. -/
theorem name_of_mem {n : String} (h : n ∈ c.names.toList) :
    c.name n = (c.names.toList.idxOf n, c) := by
  simp [name, Array.idxOf?_eq_toList, List.idxOf?_of_mem h]

/-- Numbering a new name appends it to the table. -/
theorem name_of_not_mem {n : String} (h : n ∉ c.names.toList) :
    (c.name n).1 = c.names.size ∧ (c.name n).2.names = c.names.push n ∧
      (c.name n).2.bytes = c.bytes := by
  have hn : c.names.idxOf? n = none := by
    rw [Array.idxOf?_eq_toList]; simpa using h
  simp [name, hn]

theorem name_bytes (n : String) : (c.name n).2.bytes = c.bytes := by
  by_cases h : n ∈ c.names.toList
  · rw [c.name_of_mem h]
  · exact (c.name_of_not_mem h).2.2

theorem names_prefix_name (n : String) : c.names.toList <+: (c.name n).2.names.toList := by
  by_cases h : n ∈ c.names.toList
  · rw [c.name_of_mem h]
  · rw [(c.name_of_not_mem h).2.1]
    simp

theorem mem_name (n : String) : n ∈ (c.name n).2.names.toList := by
  by_cases h : n ∈ c.names.toList
  · rwa [c.name_of_mem h]
  · rw [(c.name_of_not_mem h).2.1]
    simp

/-- The number given to a name is its index in every later table. -/
theorem name_fst {n : String} {T : List String} (hT : (c.name n).2.names.toList <+: T) :
    (c.name n).1 = T.idxOf n := by
  by_cases h : n ∈ c.names.toList
  · rw [List.idxOf_of_prefix hT (c.mem_name n), c.name_of_mem h]
  · rw [List.idxOf_of_prefix hT (c.mem_name n), (c.name_of_not_mem h).1,
      (c.name_of_not_mem h).2.1, Array.toList_push, List.idxOf_append_of_notMem h]
    simp

@[simp] theorem markRead_names (n : String) : (c.markRead n).names = (c.name n).2.names := by
  simp only [markRead]

@[simp] theorem markRead_bytes (n : String) : (c.markRead n).bytes = (c.name n).2.bytes := by
  simp only [markRead]

@[simp] theorem write_names (n : String) (d : Bool) :
    (c.write n d).names = (c.name n).2.names := by
  simp only [write]; split <;> rfl

theorem write_bytes (n : String) (d : Bool) :
    (c.write n d).bytes.data.toList = c.bytes.data.toList ++ varintBytes (c.name n).1 := by
  simp only [write]
  split <;> simp [pushVarint_data, varint, c.name_bytes]

@[simp] theorem loopVar_fst (n : String) : (c.loopVar n).1 = (c.name n).1 := rfl

@[simp] theorem loopVar_names (n : String) : (c.loopVar n).2.names = (c.name n).2.names := rfl

@[simp] theorem loopVar_bytes (n : String) : (c.loopVar n).2.bytes = c.bytes := c.name_bytes n

/-- An identifier is numbered by the read that marks it. -/
theorem expr_ident (p : Pos) (n : String) :
    c.expr (.ident p n) =
      ((c.tag .ident).markRead n).varint (((c.tag .ident).markRead n).names.toList.idxOf n) := by
  have hm : n ∈ ((c.tag .ident).markRead n).names.toList := by
    simpa using (c.tag .ident).mem_name n
  simp only [Canon.expr, name_of_mem _ hm]

/-! ### The table only grows -/

mutual
theorem names_prefix_expr (c : Canon) : (e : Expr) → c.names.toList <+: (c.expr e).names.toList
  | .int .. | .float .. | .bool .. => by simp [Canon.expr]
  | .array _ es => by
    simpa [Canon.expr] using names_prefix_exprs ((c.tag .arrayLit).varint es.length) es
  | .ident _ n => by
    simpa [expr_ident] using (c.tag .ident).names_prefix_name n
  | .binary _ op x y => by
    have hx : c.names.toList <+: (((c.tag .binary).byte op.code).expr x).names.toList := by
      simpa using names_prefix_expr ((c.tag .binary).byte op.code) x
    exact hx.trans (names_prefix_expr _ y)
  | .unary _ op x => by simpa [Canon.expr] using names_prefix_expr ((c.tag .unary).byte op.code) x
  | .index _ x i => by
    have hx : c.names.toList <+: ((c.tag .index).expr x).names.toList := by
      simpa using names_prefix_expr (c.tag .index) x
    exact hx.trans (names_prefix_expr _ i)
  | .call _ f args => by
    simp only [Canon.expr]
    simpa using names_prefix_exprs
      (({ ((c.tag .call).varint f.utf8ByteSize) with
        bytes := ((c.tag .call).varint f.utf8ByteSize).bytes ++ f.toUTF8 } : Canon).varint
        args.length) args

theorem names_prefix_exprs (c : Canon) :
    (es : List Expr) → c.names.toList <+: (c.exprs es).names.toList
  | [] => by simp [Canon.exprs]
  | e :: es => (names_prefix_expr c e).trans (names_prefix_exprs _ es)
end

theorem names_prefix_exprOpt (c : Canon) (e : Option Expr) :
    c.names.toList <+: (c.exprOpt e).names.toList := by
  cases e with
  | none => simp [exprOpt]
  | some e => exact c.names_prefix_expr e

theorem names_prefix_write (c : Canon) (n : String) (d : Bool) :
    c.names.toList <+: (c.write n d).names.toList := by
  simpa using c.names_prefix_name n

theorem names_prefix_markRead (c : Canon) (n : String) :
    c.names.toList <+: (c.markRead n).names.toList := by
  simpa using c.names_prefix_name n

/-- A block is its length followed by its statements. -/
theorem names_prefix_block_of {c : Canon} {ss : List Stmt}
    (h : (c.varint ss.length).names.toList <+: ((c.varint ss.length).stmts ss).names.toList) :
    c.names.toList <+: (c.block ss).names.toList := by
  simpa [Canon.block_eq] using h

-- blocks are unfolded to their statements, so that the recursion is structural
mutual
theorem names_prefix_stmt (c : Canon) : (s : Stmt) → c.names.toList <+: (c.stmt s).names.toList
  | .declare _ n v => by
    have hv : c.names.toList <+: ((c.tag .declare).expr v).names.toList := by
      simpa using (c.tag .declare).names_prefix_expr v
    simp only [Canon.stmt]
    exact hv.trans (names_prefix_write _ n true)
  | .assign _ n v => by
    have hv : c.names.toList <+: ((c.tag .assign).expr v).names.toList := by
      simpa using (c.tag .assign).names_prefix_expr v
    simp only [Canon.stmt]
    exact hv.trans (names_prefix_write _ n false)
  | .compound _ n op v => by
    have hr : c.names.toList <+: (((c.tag .compound).byte op.code).markRead n).names.toList := by
      simpa using ((c.tag .compound).byte op.code).names_prefix_markRead n
    simp only [Canon.stmt]
    exact (hr.trans (names_prefix_expr _ v)).trans (names_prefix_write _ n false)
  | .step _ n down => by
    have hr : c.names.toList <+:
        (((c.tag .step).byte (if down then 1 else 0)).markRead n).names.toList := by
      simpa using ((c.tag .step).byte (if down then 1 else 0)).names_prefix_markRead n
    simp only [Canon.stmt]
    exact hr.trans (names_prefix_write _ n false)
  | .cond _ cnd t e => by
    have hc : c.names.toList <+: ((c.tag .cond).expr cnd).names.toList := by
      simpa using (c.tag .cond).names_prefix_expr cnd
    simp only [Canon.stmt]
    exact (hc.trans (names_prefix_block_of (names_prefix_stmts _ t))).trans
      (names_prefix_block_of (names_prefix_stmts _ e))
  | .brk _ | .cont _ => by simp [Canon.stmt]
  | .ret _ v => by simpa [Canon.stmt] using (c.tag .ret).names_prefix_exprOpt v
  | .eval _ x => by simpa [Canon.stmt] using (c.tag .eval).names_prefix_expr x
  | .loop _ _ (.range v a b st) body => by
    rcases hv : c.loopVar v with ⟨i, c1⟩
    have h1 : c.names.toList <+: c1.names.toList := by
      have := c.names_prefix_name v
      rwa [← loopVar_names, hv] at this
    have ha := ((c1.tag .range).varint i).names_prefix_expr a
    have hb := (((c1.tag .range).varint i).expr a).names_prefix_expr b
    have hs := ((((c1.tag .range).varint i).expr a).expr b).names_prefix_exprOpt st
    simp only [Canon.stmt, hv]
    exact ((((by simpa using h1 : c.names.toList <+: ((c1.tag .range).varint i).names.toList).trans
      ha).trans hb).trans hs).trans (names_prefix_block_of (names_prefix_stmts _ body))
  | .loop _ _ (.cond cnd) body => by
    have hc : c.names.toList <+: ((c.tag .whileLoop).expr cnd).names.toList := by
      simpa using (c.tag .whileLoop).names_prefix_expr cnd
    simp only [Canon.stmt]
    exact hc.trans (names_prefix_block_of (names_prefix_stmts _ body))
  | .loop _ _ (.each v coll) body => by
    rcases hv : c.loopVar v with ⟨i, c1⟩
    have h1 : c.names.toList <+: c1.names.toList := by
      have := c.names_prefix_name v
      rwa [← loopVar_names, hv] at this
    have hc := ((c1.tag .each).varint i).names_prefix_expr coll
    simp only [Canon.stmt, hv]
    exact ((by simpa using h1 : c.names.toList <+: ((c1.tag .each).varint i).names.toList).trans
      hc).trans (names_prefix_block_of (names_prefix_stmts _ body))

theorem names_prefix_stmts (c : Canon) :
    (ss : List Stmt) → c.names.toList <+: (c.stmts ss).names.toList
  | [] => by simp [Canon.stmts]
  | s :: ss => by
    simp only [Canon.stmts]
    exact (names_prefix_stmt c s).trans (names_prefix_stmts _ ss)
end

theorem names_prefix_block (c : Canon) (ss : List Stmt) :
    c.names.toList <+: (c.block ss).names.toList :=
  names_prefix_block_of (names_prefix_stmts _ ss)

/-! ### Every variable is in the table -/

theorem mem_write (c : Canon) (n : String) (d : Bool) : n ∈ (c.write n d).names.toList := by
  simpa using c.mem_name n

mutual
theorem vars_mem_expr (c : Canon) :
    (e : Expr) → ∀ a ∈ e.vars, a ∈ (c.expr e).names.toList
  | .int .., _, h | .float .., _, h | .bool .., _, h => by simp [Expr.vars] at h
  | .array _ es, a, h => by
    simpa [Canon.expr] using vars_mem_exprs ((c.tag .arrayLit).varint es.length) es a h
  | .ident _ n, a, h => by
    simp only [Expr.vars, List.mem_singleton] at h
    subst h
    simpa [expr_ident] using (c.tag .ident).mem_name a
  | .binary _ op x y, a, h | .index _ x y, a, h => by
    simp only [Expr.vars, List.mem_append] at h
    rcases h with h | h
    · exact (names_prefix_expr _ y).subset (vars_mem_expr _ x a h)
    · exact vars_mem_expr _ y a h
  | .unary _ op x, a, h => vars_mem_expr _ x a h
  | .call _ f args, a, h => vars_mem_exprs _ args a h

theorem vars_mem_exprs (c : Canon) :
    (es : List Expr) → ∀ a ∈ Expr.varsOf es, a ∈ (c.exprs es).names.toList
  | [], _, h => by simp [Expr.varsOf] at h
  | e :: es, a, h => by
    simp only [Expr.varsOf, List.mem_append] at h
    simp only [Canon.exprs]
    rcases h with h | h
    · exact (names_prefix_exprs _ es).subset (vars_mem_expr c e a h)
    · exact vars_mem_exprs _ es a h
end

theorem vars_mem_exprOpt (c : Canon) (e : Option Expr) :
    ∀ a ∈ (e.map Expr.vars).getD [], a ∈ (c.exprOpt e).names.toList := by
  cases e with
  | none => simp
  | some e => exact c.vars_mem_expr e

/-- A loop variable is numbered by `loopVar`. -/
theorem loopVar_mem {c c1 : Canon} {v : String} {i : Nat} (hv : c.loopVar v = (i, c1)) :
    v ∈ c1.names.toList ∧ c.names.toList <+: c1.names.toList ∧ c1.bytes = c.bytes ∧
      i = (c.name v).1 ∧ c1.names = (c.name v).2.names := by
  have h1 := c.mem_name v
  have h2 := c.names_prefix_name v
  have h3 := c.loopVar_bytes v
  rw [← loopVar_names, hv] at h1 h2
  rw [hv] at h3
  refine ⟨h1, h2, h3, ?_, ?_⟩
  · rw [← loopVar_fst, hv]
  · rw [← loopVar_names, hv]

theorem vars_mem_block_of {c : Canon} {ss : List Stmt} {a : String}
    (h : a ∈ ((c.varint ss.length).stmts ss).names.toList) : a ∈ (c.block ss).names.toList := by
  rw [Canon.block_eq]
  exact h

-- blocks are unfolded to their statements, so that the recursion is structural
mutual
theorem vars_mem_stmt (c : Canon) : (s : Stmt) → ∀ a ∈ s.vars, a ∈ (c.stmt s).names.toList
  | .declare _ n v, a, h | .assign _ n v, a, h => by
    simp only [Stmt.vars, List.mem_cons] at h
    simp only [Canon.stmt]
    rcases h with rfl | h
    · exact mem_write _ _ _
    · exact (names_prefix_write _ _ _).subset (vars_mem_expr _ v a h)
  | .compound _ n op v, a, h => by
    simp only [Stmt.vars, List.mem_cons] at h
    simp only [Canon.stmt]
    rcases h with rfl | h
    · exact mem_write _ _ _
    · exact (names_prefix_write _ _ _).subset (vars_mem_expr _ v a h)
  | .step _ n _, a, h => by
    simp only [Stmt.vars, List.mem_singleton] at h
    subst h
    simp only [Canon.stmt]
    exact mem_write _ _ _
  | .cond _ cnd t e, a, h => by
    simp only [Stmt.vars, List.mem_append] at h
    simp only [Canon.stmt]
    rcases h with (h | h) | h
    · exact (names_prefix_block _ e).subset ((names_prefix_block _ t).subset
        (vars_mem_expr _ cnd a h))
    · exact (names_prefix_block _ e).subset (vars_mem_block_of (vars_mem_stmts _ t a h))
    · exact vars_mem_block_of (vars_mem_stmts _ e a h)
  | .brk _, _, h | .cont _, _, h => by simp [Stmt.vars] at h
  | .ret _ v, a, h => by simpa [Canon.stmt] using (c.tag .ret).vars_mem_exprOpt v a h
  | .eval _ x, a, h => by simpa [Canon.stmt] using (c.tag .eval).vars_mem_expr x a h
  | .loop _ _ (.range v x y st) body, a, h => by
    rcases hv : c.loopVar v with ⟨i, c1⟩
    obtain ⟨hm, -, -, -, -⟩ := loopVar_mem hv
    simp only [Stmt.vars, LoopHead.vars, List.cons_append, List.mem_cons, List.mem_append] at h
    simp only [Canon.stmt, hv]
    let cx := (c1.tag .range).varint i
    have px := names_prefix_expr cx x
    have py := names_prefix_expr (cx.expr x) y
    have ps := names_prefix_exprOpt ((cx.expr x).expr y) st
    have pb := names_prefix_block (((cx.expr x).expr y).exprOpt st) body
    rcases h with rfl | ((h | h) | h) | h
    · exact pb.subset (ps.subset (py.subset (px.subset (by simpa [cx] using hm))))
    · exact pb.subset (ps.subset (py.subset (vars_mem_expr cx x a h)))
    · exact pb.subset (ps.subset (vars_mem_expr _ y a h))
    · exact pb.subset (vars_mem_exprOpt _ st a h)
    · exact vars_mem_block_of (vars_mem_stmts _ body a h)
  | .loop _ _ (.cond cnd) body, a, h => by
    simp only [Stmt.vars, LoopHead.vars, List.mem_append] at h
    simp only [Canon.stmt]
    rcases h with h | h
    · exact (names_prefix_block _ body).subset (vars_mem_expr _ cnd a h)
    · exact vars_mem_block_of (vars_mem_stmts _ body a h)
  | .loop _ _ (.each v coll) body, a, h => by
    rcases hv : c.loopVar v with ⟨i, c1⟩
    obtain ⟨hm, -, -, -, -⟩ := loopVar_mem hv
    simp only [Stmt.vars, LoopHead.vars, List.cons_append, List.mem_cons, List.mem_append] at h
    simp only [Canon.stmt, hv]
    let cx := (c1.tag .each).varint i
    have px := names_prefix_expr cx coll
    have pb := names_prefix_block (cx.expr coll) body
    rcases h with rfl | h | h
    · exact pb.subset (px.subset (by simpa [cx] using hm))
    · exact pb.subset (vars_mem_expr cx coll a h)
    · exact vars_mem_block_of (vars_mem_stmts _ body a h)

theorem vars_mem_stmts (c : Canon) :
    (ss : List Stmt) → ∀ a ∈ Stmt.varsOf ss, a ∈ (c.stmts ss).names.toList
  | [], _, h => by simp [Stmt.varsOf] at h
  | s :: ss, a, h => by
    simp only [Stmt.varsOf, List.mem_append] at h
    simp only [Canon.stmts]
    rcases h with h | h
    · exact (names_prefix_stmts _ ss).subset (vars_mem_stmt c s a h)
    · exact vars_mem_stmts _ ss a h
end

/-! ### The buffer -/

mutual
/-- The bytes the encoder appends for an expression are its code, read
with the indices of any table the encoder's table is a prefix of. -/
theorem expr_bytes (T : List String) (c : Canon) :
    (e : Expr) → (c.expr e).names.toList <+: T →
      (c.expr e).bytes.data.toList = c.bytes.data.toList ++ e.code T.idxOf
  | .int .., _ | .float .., _ | .bool .., _ => by simp [Canon.expr, Expr.code]
  | .array _ es, hT => by
    have h := expr_bytes_all T ((c.tag .arrayLit).varint es.length) es hT
    simp [Canon.expr, h, Expr.code]
  | .ident _ n, hT => by
    rw [expr_ident] at hT ⊢
    have hm : n ∈ ((c.tag .ident).markRead n).names.toList := by
      simpa using (c.tag .ident).mem_name n
    rw [varint_bytes, markRead_bytes, name_bytes, tag_bytes,
      ← List.idxOf_of_prefix (by simpa using hT) hm]
    simp [Expr.code]
  | .binary _ op x y, hT => by
    have hy := expr_bytes T ((((c.tag .binary).byte op.code).expr x)) y hT
    have hx := expr_bytes T ((c.tag .binary).byte op.code) x
      ((names_prefix_expr _ y).trans hT)
    simp only [Canon.expr] at hT ⊢
    rw [hy, hx]
    simp [Expr.code]
  | .unary _ op x, hT => by
    simp only [Canon.expr] at hT ⊢
    rw [expr_bytes T _ x hT]
    simp [Expr.code]
  | .index _ x i, hT => by
    have hi := expr_bytes T ((c.tag .index).expr x) i hT
    have hx := expr_bytes T (c.tag .index) x ((names_prefix_expr _ i).trans hT)
    simp only [Canon.expr] at hT ⊢
    rw [hi, hx]
    simp [Expr.code]
  | .call _ f args, hT => by
    simp only [Canon.expr] at hT ⊢
    rw [expr_bytes_all T _ args hT]
    simp [Expr.code, ByteArray.data_append]

theorem expr_bytes_all (T : List String) (c : Canon) :
    (es : List Expr) → (c.exprs es).names.toList <+: T →
      (c.exprs es).bytes.data.toList = c.bytes.data.toList ++ Expr.codeAll T.idxOf es
  | [], _ => by simp [Canon.exprs, Expr.codeAll]
  | e :: es, hT => by
    simp only [Canon.exprs] at hT ⊢
    rw [expr_bytes_all T _ es hT, expr_bytes T c e ((names_prefix_exprs _ es).trans hT)]
    simp [Expr.codeAll]
end

theorem exprOpt_bytes (T : List String) (c : Canon) (e : Option Expr)
    (hT : (c.exprOpt e).names.toList <+: T) :
    (c.exprOpt e).bytes.data.toList = c.bytes.data.toList ++ Expr.codeOpt T.idxOf e := by
  cases e with
  | none => simp [exprOpt, Expr.codeOpt]
  | some e => exact expr_bytes T c e hT

/-- The bytes of a write: the index of the name written. -/
theorem write_bytes_of (T : List String) (c : Canon) (n : String) (d : Bool)
    (hT : (c.write n d).names.toList <+: T) :
    (c.write n d).bytes.data.toList = c.bytes.data.toList ++ varintBytes (T.idxOf n) := by
  rw [write_bytes, name_fst _ (by simpa using hT)]

/-- The bytes of a block: its length, then its statements. -/
theorem block_bytes_of (T : List String) {c : Canon} {ss : List Stmt}
    (hT : (c.block ss).names.toList <+: T)
    (h : ((c.varint ss.length).stmts ss).names.toList <+: T →
      ((c.varint ss.length).stmts ss).bytes.data.toList =
        (c.varint ss.length).bytes.data.toList ++ Stmt.codeAll T.idxOf ss) :
    (c.block ss).bytes.data.toList =
      c.bytes.data.toList ++ (varintBytes ss.length ++ Stmt.codeAll T.idxOf ss) := by
  rw [Canon.block_eq] at hT ⊢
  rw [h hT]
  simp

-- blocks are unfolded to their statements, so that the recursion is structural
mutual
/-- The bytes the encoder appends for a statement are its code. -/
theorem stmt_bytes (T : List String) (c : Canon) :
    (s : Stmt) → (c.stmt s).names.toList <+: T →
      (c.stmt s).bytes.data.toList = c.bytes.data.toList ++ s.code T.idxOf
  | .declare _ n v, hT | .assign _ n v, hT => by
    simp only [Canon.stmt] at hT ⊢
    rw [write_bytes_of T _ n _ hT, expr_bytes T _ v ((names_prefix_write _ n _).trans hT)]
    simp [Stmt.code]
  | .compound _ n op v, hT => by
    simp only [Canon.stmt] at hT ⊢
    rw [write_bytes_of T _ n _ hT, expr_bytes T _ v ((names_prefix_write _ n _).trans hT),
      markRead_bytes, name_bytes]
    simp [Stmt.code]
  | .step _ n down, hT => by
    simp only [Canon.stmt] at hT ⊢
    rw [write_bytes_of T _ n _ hT, markRead_bytes, name_bytes]
    simp [Stmt.code]
  | .cond _ cnd t e, hT => by
    simp only [Canon.stmt] at hT ⊢
    have he := block_bytes_of T hT (stmts_bytes T _ e)
    have ht := block_bytes_of T ((names_prefix_block _ e).trans hT) (stmts_bytes T _ t)
    have hc := expr_bytes T (c.tag .cond) cnd
      (((names_prefix_block _ t).trans (names_prefix_block _ e)).trans hT)
    rw [he, ht, hc]
    simp [Stmt.code]
  | .brk _, _ | .cont _, _ => by simp [Canon.stmt, Stmt.code]
  | .ret _ v, hT => by
    simp only [Canon.stmt] at hT ⊢
    rw [exprOpt_bytes T _ v hT]
    simp [Stmt.code]
  | .eval _ x, hT => by
    simp only [Canon.stmt] at hT ⊢
    rw [expr_bytes T _ x hT]
    simp [Stmt.code]
  | .loop _ _ (.range v x y st) body, hT => by
    rcases hv : c.loopVar v with ⟨i, c1⟩
    obtain ⟨-, -, hb, hi, hn⟩ := loopVar_mem hv
    simp only [Canon.stmt, hv] at hT ⊢
    let cx := (c1.tag .range).varint i
    have pb := names_prefix_block (((cx.expr x).expr y).exprOpt st) body
    have ps := names_prefix_exprOpt ((cx.expr x).expr y) st
    have py := names_prefix_expr (cx.expr x) y
    have px := names_prefix_expr cx x
    have hT1 : (c.name v).2.names.toList <+: T := by
      rw [← hn]
      exact (by simpa [cx] using px : c1.names.toList <+: _).trans ((py.trans ps).trans
        (pb.trans hT))
    rw [block_bytes_of T hT (stmts_bytes T _ body), exprOpt_bytes T _ st (pb.trans hT),
      expr_bytes T _ y ((ps.trans pb).trans hT), expr_bytes T cx x (((py.trans ps).trans pb).trans hT)]
    simp [cx, Stmt.code, hb, hi, name_fst _ hT1]
  | .loop _ _ (.cond cnd) body, hT => by
    simp only [Canon.stmt] at hT ⊢
    rw [block_bytes_of T hT (stmts_bytes T _ body),
      expr_bytes T _ cnd ((names_prefix_block _ body).trans hT)]
    simp [Stmt.code]
  | .loop _ _ (.each v coll) body, hT => by
    rcases hv : c.loopVar v with ⟨i, c1⟩
    obtain ⟨-, -, hb, hi, hn⟩ := loopVar_mem hv
    simp only [Canon.stmt, hv] at hT ⊢
    let cx := (c1.tag .each).varint i
    have pb := names_prefix_block (cx.expr coll) body
    have px := names_prefix_expr cx coll
    have hT1 : (c.name v).2.names.toList <+: T := by
      rw [← hn]
      exact (by simpa [cx] using px : c1.names.toList <+: _).trans (pb.trans hT)
    rw [block_bytes_of T hT (stmts_bytes T _ body), expr_bytes T cx coll (pb.trans hT)]
    simp [cx, Stmt.code, hb, hi, name_fst _ hT1]

theorem stmts_bytes (T : List String) (c : Canon) :
    (ss : List Stmt) → (c.stmts ss).names.toList <+: T →
      (c.stmts ss).bytes.data.toList = c.bytes.data.toList ++ Stmt.codeAll T.idxOf ss
  | [], _ => by simp [Canon.stmts, Stmt.codeAll]
  | s :: ss, hT => by
    simp only [Canon.stmts] at hT ⊢
    rw [stmts_bytes T _ ss hT, stmt_bytes T c s ((names_prefix_stmts _ ss).trans hT)]
    simp [Stmt.codeAll]
end

end Canon

/-! ## Reading the code back -/

theorem Op.all_code (op : Op) : Op.all[op.code.toNat]? = some op := by
  cases op <;> rfl

/-- An operator is determined by its byte. -/
theorem Op.code_inj {a b : Op} (h : a.code = b.code) : a = b := by
  have ha := Op.all_code a
  rw [h, Op.all_code b] at ha
  exact (Option.some.inj ha).symm

theorem Int64.eq_of_toUInt64_eq {a b : Int64} (h : a.toUInt64 = b.toUInt64) : a = b := by
  rw [← Int64.toBitVec_inj]
  simpa using congrArg UInt64.toBitVec h

theorem Double.eq_of_bits_eq {a b : Double} (h : a.bits = b.bits) : a = b := by
  cases a; cases b; simp_all

theorem Bool.eq_of_byte_eq {b c : Bool} (h : (if b then (1 : UInt8) else 0) = if c then 1 else 0) :
    b = c := by
  cases b <;> cases c <;> simp_all

/-- A string is determined by its length-prefixed UTF-8 bytes. -/
theorem String.eq_of_utf8_append {f g : String} {r r' : List UInt8}
    (hs : f.utf8ByteSize = g.utf8ByteSize)
    (h : f.toUTF8.data.toList ++ r = g.toUTF8.data.toList ++ r') : f = g ∧ r = r' := by
  have hl : f.toUTF8.data.toList.length = g.toUTF8.data.toList.length := by
    simp only [Array.length_toList]
    exact hs
  obtain ⟨hb, hr⟩ := List.append_inj h hl
  exact ⟨String.toByteArray_inj.mp (ByteArray.ext (Array.toList_inj.mp hb)), hr⟩

section Decode

variable {ι₁ ι₂ : String → Nat} {T₁ T₂ : List String} {σ : String → String}

mutual
/-- Two expressions with the same code, followed by anything, are the same
up to positions, with variables related by `σ`. -/
theorem Expr.rename_eq_of_code (hσ : ∀ a ∈ T₁, ∀ b ∈ T₂, ι₁ a = ι₂ b → σ a = b) :
    (e₁ e₂ : Expr) → (r₁ r₂ : List UInt8) → e₁.vars ⊆ T₁ → e₂.vars ⊆ T₂ →
      e₁.code ι₁ ++ r₁ = e₂.code ι₂ ++ r₂ → e₂.rename id = e₁.rename σ ∧ r₁ = r₂
  | .int _ n, e₂, r₁, r₂, _, _, h => by
    cases e₂ <;> simp [Expr.code, Tag.byte] at h
    rename_i m
    obtain ⟨hw, hr⟩ := wordBytes_append_inj h
    exact ⟨by simp [Expr.rename, Int64.eq_of_toUInt64_eq hw], hr⟩
  | .float _ x, e₂, r₁, r₂, _, _, h => by
    cases e₂ <;> simp [Expr.code, Tag.byte] at h
    obtain ⟨hw, hr⟩ := wordBytes_append_inj h
    exact ⟨by simp [Expr.rename, Double.eq_of_bits_eq hw], hr⟩
  | .bool _ b, e₂, r₁, r₂, _, _, h => by
    cases e₂ <;> simp [Expr.code, Tag.byte] at h
    obtain ⟨hb, hr⟩ := h
    exact ⟨by simp [Expr.rename, Bool.eq_of_byte_eq hb], hr⟩
  | .array _ es, e₂, r₁, r₂, h₁, h₂, h => by
    cases e₂ <;> simp [Expr.code, Tag.byte] at h
    rename_i es'
    obtain ⟨hl, h⟩ := varintBytes_append_inj h
    obtain ⟨he, hr⟩ := Expr.renameAll_eq_of_code hσ es es' r₁ r₂ h₁ h₂ hl h
    exact ⟨by simp [Expr.rename, he], hr⟩
  | .ident _ a, e₂, r₁, r₂, h₁, h₂, h => by
    cases e₂ <;> simp [Expr.code, Tag.byte] at h
    rename_i b
    obtain ⟨hi, hr⟩ := varintBytes_append_inj h
    simp only [Expr.vars, List.cons_subset, List.nil_subset, and_true] at h₁ h₂
    exact ⟨by simp [Expr.rename, hσ a h₁ b h₂ hi], hr⟩
  | .binary _ op x y, e₂, r₁, r₂, h₁, h₂, h => by
    cases e₂ <;> simp [Expr.code, Tag.byte] at h
    rename_i op' x' y'
    obtain ⟨ho, h⟩ := h
    simp only [Expr.vars, List.append_subset] at h₁ h₂
    obtain ⟨hx, h⟩ := Expr.rename_eq_of_code hσ x x' _ _ h₁.1 h₂.1 h
    obtain ⟨hy, hr⟩ := Expr.rename_eq_of_code hσ y y' r₁ r₂ h₁.2 h₂.2 h
    exact ⟨by simp [Expr.rename, hx, hy, Op.code_inj ho], hr⟩
  | .unary _ op x, e₂, r₁, r₂, h₁, h₂, h => by
    cases e₂ <;> simp [Expr.code, Tag.byte] at h
    rename_i op' x'
    obtain ⟨ho, h⟩ := h
    obtain ⟨hx, hr⟩ := Expr.rename_eq_of_code hσ x x' r₁ r₂ h₁ h₂ h
    exact ⟨by simp [Expr.rename, hx, Op.code_inj ho], hr⟩
  | .index _ x i, e₂, r₁, r₂, h₁, h₂, h => by
    cases e₂ <;> simp [Expr.code, Tag.byte] at h
    rename_i x' i'
    simp only [Expr.vars, List.append_subset] at h₁ h₂
    obtain ⟨hx, h⟩ := Expr.rename_eq_of_code hσ x x' _ _ h₁.1 h₂.1 h
    obtain ⟨hi, hr⟩ := Expr.rename_eq_of_code hσ i i' r₁ r₂ h₁.2 h₂.2 h
    exact ⟨by simp [Expr.rename, hx, hi], hr⟩
  | .call _ f args, e₂, r₁, r₂, h₁, h₂, h => by
    cases e₂ <;> simp [Expr.code, Tag.byte] at h
    rename_i f' args'
    obtain ⟨hs, h⟩ := varintBytes_append_inj h
    obtain ⟨hf, h⟩ := String.eq_of_utf8_append hs h
    obtain ⟨hl, h⟩ := varintBytes_append_inj h
    obtain ⟨ha, hr⟩ := Expr.renameAll_eq_of_code hσ args args' r₁ r₂ h₁ h₂ hl h
    exact ⟨by simp [Expr.rename, ha, hf], hr⟩

/-- Lists of expressions of the same length with the same code. -/
theorem Expr.renameAll_eq_of_code (hσ : ∀ a ∈ T₁, ∀ b ∈ T₂, ι₁ a = ι₂ b → σ a = b) :
    (es₁ es₂ : List Expr) → (r₁ r₂ : List UInt8) → Expr.varsOf es₁ ⊆ T₁ →
      Expr.varsOf es₂ ⊆ T₂ → es₁.length = es₂.length →
      Expr.codeAll ι₁ es₁ ++ r₁ = Expr.codeAll ι₂ es₂ ++ r₂ →
      Expr.renameAll id es₂ = Expr.renameAll σ es₁ ∧ r₁ = r₂
  | [], [], _, _, _, _, _, h => ⟨rfl, by simpa [Expr.codeAll] using h⟩
  | e₁ :: es₁, e₂ :: es₂, r₁, r₂, h₁, h₂, hl, h => by
    simp only [Expr.varsOf, List.append_subset] at h₁ h₂
    simp only [Expr.codeAll, List.append_assoc] at h
    obtain ⟨he, h⟩ := Expr.rename_eq_of_code hσ e₁ e₂ _ _ h₁.1 h₂.1 h
    obtain ⟨hes, hr⟩ := Expr.renameAll_eq_of_code hσ es₁ es₂ r₁ r₂ h₁.2 h₂.2
      (by simpa using hl) h
    exact ⟨by simp [Expr.renameAll, he, hes], hr⟩
end

theorem Expr.renameOpt_eq_of_code (hσ : ∀ a ∈ T₁, ∀ b ∈ T₂, ι₁ a = ι₂ b → σ a = b) :
    (o₁ o₂ : Option Expr) → (r₁ r₂ : List UInt8) → (o₁.map Expr.vars).getD [] ⊆ T₁ →
      (o₂.map Expr.vars).getD [] ⊆ T₂ → Expr.codeOpt ι₁ o₁ ++ r₁ = Expr.codeOpt ι₂ o₂ ++ r₂ →
      o₂.map (Expr.rename id) = o₁.map (Expr.rename σ) ∧ r₁ = r₂
  | none, none, _, _, _, _, h => ⟨rfl, by simpa [Expr.codeOpt] using h⟩
  | none, some e, _, _, _, _, h | some e, none, _, _, _, _, h => by
    cases e <;> simp [Expr.codeOpt, Expr.code, Tag.byte] at h
  | some e₁, some e₂, r₁, r₂, h₁, h₂, h => by
    obtain ⟨he, hr⟩ := Expr.rename_eq_of_code hσ e₁ e₂ r₁ r₂ h₁ h₂ h
    exact ⟨by simp [he], hr⟩

mutual
/-- Two statements with the same code, followed by anything, are the same
up to positions and loop keys, with variables related by `σ`. -/
theorem Stmt.rename_eq_of_code (hσ : ∀ a ∈ T₁, ∀ b ∈ T₂, ι₁ a = ι₂ b → σ a = b) :
    (s₁ s₂ : Stmt) → (r₁ r₂ : List UInt8) → s₁.vars ⊆ T₁ → s₂.vars ⊆ T₂ →
      s₁.code ι₁ ++ r₁ = s₂.code ι₂ ++ r₂ → s₂.rename id = s₁.rename σ ∧ r₁ = r₂
  | .declare _ n v, s₂, r₁, r₂, h₁, h₂, h => by
    rcases s₂ with _ | _ | _ | _ | _ | _ | _ | _ | _ | ⟨_, _, _ | _ | _, _⟩ <;>
      simp [Stmt.code, Tag.byte] at h
    rename_i n' v'
    simp only [Stmt.vars, List.cons_subset] at h₁ h₂
    obtain ⟨hv, h⟩ := Expr.rename_eq_of_code hσ v v' _ _ h₁.2 h₂.2 h
    obtain ⟨hn, hr⟩ := varintBytes_append_inj h
    exact ⟨by simp [Stmt.rename, hv, hσ n h₁.1 n' h₂.1 hn], hr⟩
  | .assign _ n v, s₂, r₁, r₂, h₁, h₂, h => by
    rcases s₂ with _ | _ | _ | _ | _ | _ | _ | _ | _ | ⟨_, _, _ | _ | _, _⟩ <;>
      simp [Stmt.code, Tag.byte] at h
    rename_i n' v'
    simp only [Stmt.vars, List.cons_subset] at h₁ h₂
    obtain ⟨hv, h⟩ := Expr.rename_eq_of_code hσ v v' _ _ h₁.2 h₂.2 h
    obtain ⟨hn, hr⟩ := varintBytes_append_inj h
    exact ⟨by simp [Stmt.rename, hv, hσ n h₁.1 n' h₂.1 hn], hr⟩
  | .compound _ n op v, s₂, r₁, r₂, h₁, h₂, h => by
    rcases s₂ with _ | _ | _ | _ | _ | _ | _ | _ | _ | ⟨_, _, _ | _ | _, _⟩ <;>
      simp [Stmt.code, Tag.byte] at h
    rename_i n' op' v'
    obtain ⟨ho, h⟩ := h
    simp only [Stmt.vars, List.cons_subset] at h₁ h₂
    obtain ⟨hv, h⟩ := Expr.rename_eq_of_code hσ v v' _ _ h₁.2 h₂.2 h
    obtain ⟨hn, hr⟩ := varintBytes_append_inj h
    exact ⟨by simp [Stmt.rename, hv, hσ n h₁.1 n' h₂.1 hn, Op.code_inj ho], hr⟩
  | .step _ n down, s₂, r₁, r₂, h₁, h₂, h => by
    rcases s₂ with _ | _ | _ | _ | _ | _ | _ | _ | _ | ⟨_, _, _ | _ | _, _⟩ <;>
      simp [Stmt.code, Tag.byte] at h
    rename_i n' down'
    obtain ⟨hd, h⟩ := h
    simp only [Stmt.vars, List.cons_subset, List.nil_subset, and_true] at h₁ h₂
    obtain ⟨hn, hr⟩ := varintBytes_append_inj h
    exact ⟨by simp [Stmt.rename, hσ n h₁ n' h₂ hn, Bool.eq_of_byte_eq hd], hr⟩
  | .cond _ c t e, s₂, r₁, r₂, h₁, h₂, h => by
    rcases s₂ with _ | _ | _ | _ | _ | _ | _ | _ | _ | ⟨_, _, _ | _ | _, _⟩ <;>
      simp [Stmt.code, Tag.byte] at h
    rename_i c' t' e'
    simp only [Stmt.vars, List.append_subset] at h₁ h₂
    obtain ⟨hc, h⟩ := Expr.rename_eq_of_code hσ c c' _ _ h₁.1.1 h₂.1.1 h
    obtain ⟨hlt, h⟩ := varintBytes_append_inj h
    obtain ⟨ht, h⟩ := Stmt.renameAll_eq_of_code hσ t t' _ _ h₁.1.2 h₂.1.2 hlt h
    obtain ⟨hle, h⟩ := varintBytes_append_inj h
    obtain ⟨he, hr⟩ := Stmt.renameAll_eq_of_code hσ e e' r₁ r₂ h₁.2 h₂.2 hle h
    exact ⟨by simp [Stmt.rename, hc, ht, he], hr⟩
  | .brk _, s₂, r₁, r₂, _, _, h | .cont _, s₂, r₁, r₂, _, _, h => by
    rcases s₂ with _ | _ | _ | _ | _ | _ | _ | _ | _ | ⟨_, _, _ | _ | _, _⟩ <;>
      simp [Stmt.code, Tag.byte] at h
    exact ⟨rfl, h⟩
  | .ret _ v, s₂, r₁, r₂, h₁, h₂, h => by
    rcases s₂ with _ | _ | _ | _ | _ | _ | _ | _ | _ | ⟨_, _, _ | _ | _, _⟩ <;>
      simp [Stmt.code, Tag.byte] at h
    rename_i v'
    obtain ⟨hv, hr⟩ := Expr.renameOpt_eq_of_code hσ v v' r₁ r₂ h₁ h₂ h
    exact ⟨by simp [Stmt.rename, hv], hr⟩
  | .eval _ x, s₂, r₁, r₂, h₁, h₂, h => by
    rcases s₂ with _ | _ | _ | _ | _ | _ | _ | _ | _ | ⟨_, _, _ | _ | _, _⟩ <;>
      simp [Stmt.code, Tag.byte] at h
    rename_i x'
    obtain ⟨hx, hr⟩ := Expr.rename_eq_of_code hσ x x' r₁ r₂ h₁ h₂ h
    exact ⟨by simp [Stmt.rename, hx], hr⟩
  | .loop _ _ (.range v a b st) body, s₂, r₁, r₂, h₁, h₂, h => by
    rcases s₂ with _ | _ | _ | _ | _ | _ | _ | _ | _ | ⟨_, _, _ | _ | _, _⟩ <;>
      simp [Stmt.code, Tag.byte] at h
    rename_i body' v' a' b' st'
    simp only [Stmt.vars, LoopHead.vars, List.cons_append, List.cons_subset,
      List.append_subset] at h₁ h₂
    obtain ⟨hv, h⟩ := varintBytes_append_inj h
    obtain ⟨ha, h⟩ := Expr.rename_eq_of_code hσ a a' _ _ h₁.2.1.1.1 h₂.2.1.1.1 h
    obtain ⟨hb, h⟩ := Expr.rename_eq_of_code hσ b b' _ _ h₁.2.1.1.2 h₂.2.1.1.2 h
    obtain ⟨hs, h⟩ := Expr.renameOpt_eq_of_code hσ st st' _ _ h₁.2.1.2 h₂.2.1.2 h
    obtain ⟨hl, h⟩ := varintBytes_append_inj h
    obtain ⟨hbody, hr⟩ := Stmt.renameAll_eq_of_code hσ body body' r₁ r₂ h₁.2.2 h₂.2.2 hl h
    exact ⟨by simp [Stmt.rename, LoopHead.rename, hσ v h₁.1 v' h₂.1 hv, ha, hb, hs, hbody], hr⟩
  | .loop _ _ (.cond c) body, s₂, r₁, r₂, h₁, h₂, h => by
    rcases s₂ with _ | _ | _ | _ | _ | _ | _ | _ | _ | ⟨_, _, _ | _ | _, _⟩ <;>
      simp [Stmt.code, Tag.byte] at h
    rename_i body' c'
    simp only [Stmt.vars, LoopHead.vars, List.append_subset] at h₁ h₂
    obtain ⟨hc, h⟩ := Expr.rename_eq_of_code hσ c c' _ _ h₁.1 h₂.1 h
    obtain ⟨hl, h⟩ := varintBytes_append_inj h
    obtain ⟨hbody, hr⟩ := Stmt.renameAll_eq_of_code hσ body body' r₁ r₂ h₁.2 h₂.2 hl h
    exact ⟨by simp [Stmt.rename, LoopHead.rename, hc, hbody], hr⟩
  | .loop _ _ (.each v coll) body, s₂, r₁, r₂, h₁, h₂, h => by
    rcases s₂ with _ | _ | _ | _ | _ | _ | _ | _ | _ | ⟨_, _, _ | _ | _, _⟩ <;>
      simp [Stmt.code, Tag.byte] at h
    rename_i body' v' coll'
    simp only [Stmt.vars, LoopHead.vars, List.cons_append, List.cons_subset,
      List.append_subset] at h₁ h₂
    obtain ⟨hv, h⟩ := varintBytes_append_inj h
    obtain ⟨hc, h⟩ := Expr.rename_eq_of_code hσ coll coll' _ _ h₁.2.1 h₂.2.1 h
    obtain ⟨hl, h⟩ := varintBytes_append_inj h
    obtain ⟨hbody, hr⟩ := Stmt.renameAll_eq_of_code hσ body body' r₁ r₂ h₁.2.2 h₂.2.2 hl h
    exact ⟨by simp [Stmt.rename, LoopHead.rename, hσ v h₁.1 v' h₂.1 hv, hc, hbody], hr⟩

/-- Blocks of the same length with the same code. -/
theorem Stmt.renameAll_eq_of_code (hσ : ∀ a ∈ T₁, ∀ b ∈ T₂, ι₁ a = ι₂ b → σ a = b) :
    (ss₁ ss₂ : List Stmt) → (r₁ r₂ : List UInt8) → Stmt.varsOf ss₁ ⊆ T₁ →
      Stmt.varsOf ss₂ ⊆ T₂ → ss₁.length = ss₂.length →
      Stmt.codeAll ι₁ ss₁ ++ r₁ = Stmt.codeAll ι₂ ss₂ ++ r₂ →
      Stmt.renameAll id ss₂ = Stmt.renameAll σ ss₁ ∧ r₁ = r₂
  | [], [], _, _, _, _, _, h => ⟨rfl, by simpa [Stmt.codeAll] using h⟩
  | s₁ :: ss₁, s₂ :: ss₂, r₁, r₂, h₁, h₂, hl, h => by
    simp only [Stmt.varsOf, List.append_subset] at h₁ h₂
    simp only [Stmt.codeAll, List.append_assoc] at h
    obtain ⟨hs, h⟩ := Stmt.rename_eq_of_code hσ s₁ s₂ _ _ h₁.1 h₂.1 h
    obtain ⟨hss, hr⟩ := Stmt.renameAll_eq_of_code hσ ss₁ ss₂ r₁ r₂ h₁.2 h₂.2
      (by simpa using hl) h
    exact ⟨by simp [Stmt.renameAll, hs, hss], hr⟩
end

end Decode

/-! ## Loops -/

theorem Loop.toStmt_inj {l₁ l₂ : Loop} (h : l₁.toStmt = l₂.toStmt) : l₁ = l₂ := by
  obtain ⟨k₁, p₁, h₁, b₁⟩ := l₁
  obtain ⟨k₂, p₂, h₂, b₂⟩ := l₂
  simp only [Loop.toStmt, Stmt.loop.injEq] at h
  simp [h]

/-- The buffer of a loop's encoding is the code of the loop, each variable
written as its place in the final table of names. -/
theorem Loop.canon_bytes (l : Loop) :
    l.canon.bytes.data.toList = l.toStmt.code l.canon.names.toList.idxOf := by
  obtain ⟨k, p, h, b⟩ := l
  cases h <;> simp only [Loop.canon] <;> rw [Canon.stmt_bytes _ _ _ (List.prefix_refl _)] <;> simp

theorem Loop.vars_subset_canon (l : Loop) : l.vars ⊆ l.canon.names.toList := by
  obtain ⟨k, p, h, b⟩ := l
  cases h <;> exact fun a ha => Canon.vars_mem_stmt _ _ a ha

/-- Loops whose encodings have the same bytes are renamings of each other:
each variable of the first goes to the variable of the second with the same
number. -/
theorem rename_eq_of_canon_bytes {l₁ l₂ : Loop} (h : l₁.canon.bytes = l₂.canon.bytes) :
    l₂.rename id = l₁.rename fun a =>
      l₂.canon.names.toList.getD (l₁.canon.names.toList.idxOf a) a := by
  set T₁ := l₁.canon.names.toList
  set T₂ := l₂.canon.names.toList
  have hσ : ∀ a ∈ T₁, ∀ b ∈ T₂, T₁.idxOf a = T₂.idxOf b → T₂.getD (T₁.idxOf a) a = b := by
    intro a _ b hb hab
    rw [hab, List.getD_eq_getElem _ _ (List.idxOf_lt_length_of_mem hb), List.getElem_idxOf]
  have hc : l₁.toStmt.code T₁.idxOf ++ [] = l₂.toStmt.code T₂.idxOf ++ [] := by
    rw [List.append_nil, List.append_nil, ← Loop.canon_bytes, ← Loop.canon_bytes, h]
  have hs := (Stmt.rename_eq_of_code hσ l₁.toStmt l₂.toStmt [] []
    (Loop.vars_subset_canon l₁) (Loop.vars_subset_canon l₂) hc).1
  rw [← Loop.toStmt_rename, ← Loop.toStmt_rename] at hs
  exact Loop.toStmt_inj hs

end HotLoop
