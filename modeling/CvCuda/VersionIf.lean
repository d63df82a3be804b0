import CvCuda.Version

/-!
# The version macros of `VersionDef.h` in `#if`

Reference: `src/nvcv_types/include/nvcv/VersionDef.h:43-101`, `:152-192`.

`VersionDef.h` checks a user's `NVCV_VERSION_API` on the `#if` line
`NVCV_VERSION_API < NVCV_MAKE_VERSION(NVCV_VERSION_MAJOR) || NVCV_VERSION_API >
NVCV_MAKE_VERSION(NVCV_VERSION_MAJOR, NVCV_VERSION_MINOR)` (`:156-157`), shows
`#if NVCV_VERSION < NVCV_MAKE_VERSION(1,0,0)` as the use of its version numbers (`:83`), and
documents `NVCV_VERSION_API_IS` and its siblings as conditions that enable code. An `#if` line
is evaluated after macro expansion with every identifier left replaced by `0`, as the C standard
requires, so the `(uint32_t)` cast of `NVCV_MAKE_VERSION4` reaches the evaluator as `(0)` directly
followed by `(`, which no operator of an `#if` expression joins. `nvcvVersionApi` is the whole
`NVCV_VERSION_API` block, its `#if`, its `#error` and its default; with a selection it stops at the
`#if` line (`nvcvVersionApi_some`).

The evaluator is modelled on GCC's, `_cpp_parse_expr` and `reduce` in libcpp's `expr.c`: an
operator-precedence parser that reads the tokens once, keeps a stack of pending operators, each
with the value read after it, and a flag for whether a value is due. Values are `intmax_t`,
computed modulo `2^64`. Only the tokens the version macros expand to are modelled: numbers,
identifiers, parentheses and the binary operators `*`, `+`, `<`, `>`, `<=`, `>=`, `==`, `&&`,
`||`.

## Shape of the proof

After `)` no value is due (`ifStep_rparen_wantValue`), and `(` where no value is due is an error
(`ifStep_lparen_of_not_wantValue`), so every token list with `)` `(` in it is rejected
(`ppIf_append_rparen_lparen`); every expansion of `NVCV_MAKE_VERSION4` has that pair right after
`uint32_t` (`ppIf_of_nvcvMakeVersion4`). The arithmetic inside the cast evaluates to the number
`nvcvMakeVersion4` makes (`ppIf_nvcvMakeVersion4Body`): the cast alone is what the preprocessor
rejects.
-/

namespace CvCuda.VersionDef

/-! ## Tokens and the parser's state -/

/-- The binary operators of `#if` expressions that the version macros use. -/
inductive PPBinOp
  | mul | add | lt | gt | le | ge | eqEq | andAnd | orOr
  deriving DecidableEq, Repr

/-- A preprocessing token of an `#if` line after macro expansion. -/
inductive PPToken
  | number (n : Nat)
  | ident (name : String)
  | lparen
  | rparen
  | op (o : PPBinOp)
  deriving DecidableEq, Repr

/-- `intmax_t` arithmetic: the value modulo `2^64`, in `[-2^63, 2^63)`. -/
def toIntmax (x : Int) : Int :=
  (x + 9223372036854775808) % 18446744073709551616 - 9223372036854775808

/-- The priority of an operator in libcpp's `optab`. -/
def PPBinOp.prio : PPBinOp → Nat
  | .mul => 15
  | .add => 14
  | .lt | .gt | .le | .ge => 12
  | .eqEq => 11
  | .andAnd => 6
  | .orOr => 5

/-- What `reduce` makes of an operator, the value before it and the value after it. -/
def PPBinOp.apply : PPBinOp → Int → Int → Int
  | .mul, a, b => toIntmax (a * b)
  | .add, a, b => toIntmax (a + b)
  | .lt, a, b => if a < b then 1 else 0
  | .gt, a, b => if a > b then 1 else 0
  | .le, a, b => if a ≤ b then 1 else 0
  | .ge, a, b => if a ≥ b then 1 else 0
  | .eqEq, a, b => if a = b then 1 else 0
  | .andAnd, a, b => if a ≠ 0 ∧ b ≠ 0 then 1 else 0
  | .orOr, a, b => if a ≠ 0 ∨ b ≠ 0 then 1 else 0

/-- The operator of an entry of the stack: the `CPP_EOF` at its bottom, an open parenthesis, or a
binary operator. -/
inductive StackOp
  | bottom
  | lparen
  | bin (o : PPBinOp)
  deriving DecidableEq, Repr

/-- An entry of the stack: an operator and the value read after it. -/
structure Frame where
  op : StackOp
  value : Int
  deriving DecidableEq, Repr

/-- Why the preprocessor rejects an `#if` line. -/
inductive IfError
  /-- A value or `(` where an operator is due: "missing binary operator before token". -/
  | missingBinaryOperator
  /-- An operator, `)` or the end of the line where a value is due. -/
  | missingOperand
  /-- A `)` with no `(` open: "missing '(' in expression". -/
  | missingOpenParen
  /-- The end of the line with a `(` open: "missing ')' in expression". -/
  | missingCloseParen
  deriving DecidableEq, Repr

/-- The parser's state: the top of the stack, the entries below it, and whether a value is due
(`want_value`). -/
structure IfState where
  top : Frame
  below : List Frame
  wantValue : Bool
  deriving DecidableEq, Repr

/-- The state before the first token: `CPP_EOF` alone on the stack, and a value due. -/
def IfState.init : IfState := ⟨⟨.bottom, 0⟩, [], true⟩

/-! ## The parser -/

/-- The loop of `reduce`: applies the binary operators on top of the stack whose priority exceeds
`prio`, each to the value below it and the value after it. -/
def reduceBin (prio : Nat) : Frame → List Frame → Frame × List Frame
  | ⟨.bin o, v⟩, below :: rest =>
    if prio < o.prio then reduceBin prio ⟨below.op, o.apply below.value v⟩ rest
    else (⟨.bin o, v⟩, below :: rest)
  | top, rest => (top, rest)

/-- A number, or an identifier (`0`), where a value is due. -/
def ifValue (s : IfState) (n : Int) : Except IfError IfState :=
  if s.wantValue then .ok { s with top := { s.top with value := n }, wantValue := false }
  else .error .missingBinaryOperator

/-- `(`: pushed where a value is due. -/
def openParen (s : IfState) : Except IfError IfState :=
  if s.wantValue then .ok ⟨⟨.lparen, 0⟩, s.top :: s.below, true⟩
  else .error .missingBinaryOperator

/-- `)`: `reduce` down to the matching `(`, whose value passes to the entry below it; the next
token must be an operator. -/
def closeParen (s : IfState) : Except IfError IfState :=
  if s.wantValue then .error .missingOperand
  else
    match reduceBin 0 s.top s.below with
    | (⟨.lparen, v⟩, below :: rest) => .ok ⟨⟨below.op, v⟩, rest, false⟩
    | _ => .error .missingOpenParen

/-- A binary operator: `reduce` the pending operators that bind at least as tightly, as for a
left-associative operator, then push it. -/
def pushBin (s : IfState) (o : PPBinOp) : Except IfError IfState :=
  if s.wantValue then .error .missingOperand
  else
    let r := reduceBin (o.prio - 1) s.top s.below
    .ok ⟨⟨.bin o, 0⟩, r.1 :: r.2, true⟩

/-- One token of the loop of `_cpp_parse_expr`. -/
def ifStep (s : IfState) : PPToken → Except IfError IfState
  | .number n => ifValue s (toIntmax n)
  | .ident _ => ifValue s 0
  | .lparen => openParen s
  | .rparen => closeParen s
  | .op o => pushBin s o

/-- The end of the line: a value must be there, and `reduce` must bring the stack down to
`CPP_EOF`, whose value is the result. -/
def ifEnd (s : IfState) : Except IfError Int :=
  if s.wantValue then .error .missingOperand
  else
    match reduceBin 0 s.top s.below with
    | (⟨.bottom, v⟩, _) => .ok v
    | _ => .error .missingCloseParen

/-- The value of the controlling expression of an `#if` line, or why it is rejected. -/
def ppIf (ts : List PPToken) : Except IfError Int :=
  ts.foldlM ifStep .init >>= ifEnd

example : ppIf [.number 1, .op .add, .number 2, .op .mul, .number 3, .op .lt, .number 7] = .ok 0 :=
  rfl

/-! ## The macros' expansions -/

/-- The arithmetic inside the cast of `NVCV_MAKE_VERSION4` (`VersionDef.h:47-48`):
`((major)*1000000 + (minor)*10000 + (patch)*100 + (tweak))`. -/
def nvcvMakeVersion4Body (major minor patch tweak : List PPToken) : List PPToken :=
  [.lparen, .lparen] ++ major ++ [.rparen, .op .mul, .number 1000000, .op .add, .lparen] ++ minor ++
    [.rparen, .op .mul, .number 10000, .op .add, .lparen] ++ patch ++
    [.rparen, .op .mul, .number 100, .op .add, .lparen] ++ tweak ++ [.rparen, .rparen]

/-- `NVCV_MAKE_VERSION4(major, minor, patch, tweak)` (`VersionDef.h:47-48`):
`((uint32_t)((major)*1000000 + ...))`. -/
def nvcvMakeVersion4Tokens (major minor patch tweak : List PPToken) : List PPToken :=
  [.lparen, .lparen, .ident "uint32_t", .rparen] ++ nvcvMakeVersion4Body major minor patch tweak ++
    [.rparen]

/-- `NVCV_MAKE_VERSION3(major, minor, patch)` (`VersionDef.h:57-58`). -/
def nvcvMakeVersion3Tokens (major minor patch : List PPToken) : List PPToken :=
  nvcvMakeVersion4Tokens major minor patch [.number 0]

/-- `NVCV_MAKE_VERSION2(major, minor)` (`VersionDef.h:67-68`). -/
def nvcvMakeVersion2Tokens (major minor : List PPToken) : List PPToken :=
  nvcvMakeVersion4Tokens major minor [.number 0] [.number 0]

/-- `NVCV_MAKE_VERSION1(major)` (`VersionDef.h:77-78`). -/
def nvcvMakeVersion1Tokens (major : List PPToken) : List PPToken :=
  nvcvMakeVersion4Tokens major [.number 0] [.number 0] [.number 0]

/-- `NVCV_VERSION` (`VersionDef.h:139`): `NVCV_MAKE_VERSION(0, 3, 0, 0)`. -/
def nvcvVersionTokens : List PPToken :=
  nvcvMakeVersion4Tokens [.number 0] [.number 3] [.number 0] [.number 0]

/-- The range check of `VersionDef.h:156-157` for a `NVCV_VERSION_API` that expands to `api`, with
`NVCV_VERSION_MAJOR` `0` and `NVCV_VERSION_MINOR` `3`. -/
def nvcvVersionApiCheckTokens (api : List PPToken) : List PPToken :=
  api ++ [.op .lt] ++ nvcvMakeVersion1Tokens [.number 0] ++ [.op .orOr] ++ api ++ [.op .gt] ++
    nvcvMakeVersion2Tokens [.number 0] [.number 3]

/-- How the preprocessor stops on the `NVCV_VERSION_API` block: its `#if` line cannot be
evaluated, or the line is true and the `#error` under it fires with its message. -/
inductive VersionApiError
  | ifRejected (e : IfError)
  | error (message : String)
  deriving DecidableEq, Repr

/-- The `NVCV_VERSION_API` block (`VersionDef.h:155-162`), given what a user's `NVCV_VERSION_API`
expands to, if it is defined: the range check goes through `#if`, and a nonzero value reaches
`#error`; without a selection, `NVCV_VERSION_API` becomes `NVCV_MAKE_VERSION(0, 3)`. -/
def nvcvVersionApi : Option (List PPToken) → Except VersionApiError (List PPToken)
  | some api =>
    match ppIf (nvcvVersionApiCheckTokens api) with
    | .error e => .error (.ifRejected e)
    | .ok v => if v ≠ 0 then .error (.error "Selected NVCV API version not supported.") else .ok api
  | none => .ok (nvcvMakeVersion2Tokens [.number 0] [.number 3])

/-- `NVCV_VERSION_API_IS(major,minor)` (`VersionDef.h:169-170`), `NVCV_VERSION_API` expanding to
`api`. -/
def nvcvVersionApiIsTokens (api major minor : List PPToken) : List PPToken :=
  [.lparen] ++ nvcvMakeVersion2Tokens major minor ++ [.op .eqEq] ++ api ++ [.rparen]

/-- `NVCV_VERSION_API_AT_LEAST(major,minor)` (`VersionDef.h:176-177`). -/
def nvcvVersionApiAtLeastTokens (api major minor : List PPToken) : List PPToken :=
  [.lparen] ++ nvcvMakeVersion2Tokens major minor ++ [.op .le] ++ api ++ [.rparen]

/-- `NVCV_VERSION_API_AT_MOST(major,minor)` (`VersionDef.h:183-184`). -/
def nvcvVersionApiAtMostTokens (api major minor : List PPToken) : List PPToken :=
  [.lparen] ++ nvcvMakeVersion2Tokens major minor ++ [.op .ge] ++ api ++ [.rparen]

/-- `NVCV_VERSION_API_IN_RANGE(min_major,min_minor,max_major,max_minor)`
(`VersionDef.h:191-192`). -/
def nvcvVersionApiInRangeTokens (api minMajor minMinor maxMajor maxMinor : List PPToken) :
    List PPToken :=
  [.lparen] ++ nvcvVersionApiAtLeastTokens api minMajor minMinor ++ [.op .andAnd] ++
    nvcvVersionApiAtMostTokens api maxMajor maxMinor ++ [.rparen]

/-! ## `)` followed by `(` is rejected -/

theorem ifStep_rparen_wantValue {s s' : IfState} (h : ifStep s .rparen = .ok s') :
    s'.wantValue = false := by
  simp only [ifStep, closeParen] at h
  split at h
  · cases h
  · split at h
    · cases h; rfl
    · cases h

theorem ifStep_lparen_of_not_wantValue {s : IfState} (h : s.wantValue = false) :
    ifStep s .lparen = .error .missingBinaryOperator := by
  simp [ifStep, openParen, h]

/-- Whatever comes before and after, a `)` directly followed by `(` is rejected. -/
theorem ppIf_append_rparen_lparen (xs ys : List PPToken) :
    ∃ e, ppIf (xs ++ .rparen :: .lparen :: ys) = .error e := by
  simp only [ppIf, List.foldlM_append, List.foldlM_cons]
  cases hxs : xs.foldlM ifStep .init with
  | error e => exact ⟨e, rfl⟩
  | ok s =>
    cases hr : ifStep s .rparen with
    | error e => exact ⟨e, by simp [bind, Except.bind, hr]⟩
    | ok s' =>
      refine ⟨.missingBinaryOperator, ?_⟩
      simp [bind, Except.bind, hr, ifStep_lparen_of_not_wantValue (ifStep_rparen_wantValue hr)]

/-- The cast puts `)` `(` right after `uint32_t`. -/
theorem nvcvMakeVersion4Tokens_eq (major minor patch tweak : List PPToken) :
    nvcvMakeVersion4Tokens major minor patch tweak =
      [.lparen, .lparen, .ident "uint32_t"] ++
        .rparen :: .lparen :: ((nvcvMakeVersion4Body major minor patch tweak).tail ++ [.rparen]) := by
  simp [nvcvMakeVersion4Tokens, nvcvMakeVersion4Body]

/-- Every `#if` line with an expansion of `NVCV_MAKE_VERSION4` in it is rejected. -/
theorem ppIf_of_nvcvMakeVersion4 (xs ys major minor patch tweak : List PPToken) :
    ∃ e, ppIf (xs ++ nvcvMakeVersion4Tokens major minor patch tweak ++ ys) = .error e := by
  obtain ⟨e, he⟩ := ppIf_append_rparen_lparen (xs ++ [.lparen, .lparen, .ident "uint32_t"])
    ((nvcvMakeVersion4Body major minor patch tweak).tail ++ [.rparen] ++ ys)
  exact ⟨e, by rw [nvcvMakeVersion4Tokens_eq]; simpa using he⟩

/-- Where a value is due, an expansion of `NVCV_MAKE_VERSION4` is rejected at the `(` after
`uint32_t`, whatever follows. -/
theorem foldlM_nvcvMakeVersion4_of_wantValue {s : IfState} (h : s.wantValue = true)
    (major minor patch tweak ys : List PPToken) :
    (nvcvMakeVersion4Tokens major minor patch tweak ++ ys).foldlM ifStep s =
      .error .missingBinaryOperator := by
  obtain ⟨top, below, want⟩ := s
  subst h
  rfl

theorem ppIf_nvcvMakeVersion4_of_wantValue {xs : List PPToken} {s : IfState}
    (hxs : xs.foldlM ifStep .init = .ok s) (h : s.wantValue = true)
    (major minor patch tweak ys : List PPToken) :
    ppIf (xs ++ nvcvMakeVersion4Tokens major minor patch tweak ++ ys) =
      .error .missingBinaryOperator := by
  rw [ppIf, List.append_assoc, List.foldlM_append, hxs]
  simp only [bind, Except.bind, foldlM_nvcvMakeVersion4_of_wantValue h]

example : ppIf (nvcvVersionTokens ++ [.op .lt] ++ nvcvMakeVersion3Tokens [.number 1] [.number 0]
    [.number 0]) = .error .missingBinaryOperator := rfl

/-! ## The arithmetic inside the cast -/

theorem toIntmax_of_lt {x : Int} (h0 : -9223372036854775808 ≤ x) (h1 : x < 9223372036854775808) :
    toIntmax x = x := by
  unfold toIntmax
  rw [Int.emod_eq_of_lt (by omega) (by omega)]
  omega

/-- The arithmetic of `NVCV_MAKE_VERSION4` without its cast, on numbers, as the preprocessor
computes it: left to right, products first, each result in `intmax_t`. -/
theorem ppIf_nvcvMakeVersion4Body_eq (a b c d : Nat) :
    ppIf (nvcvMakeVersion4Body [.number a] [.number b] [.number c] [.number d]) =
      .ok (PPBinOp.apply .add (PPBinOp.apply .add (PPBinOp.apply .add
        (PPBinOp.apply .mul (toIntmax a) (toIntmax 1000000))
        (PPBinOp.apply .mul (toIntmax b) (toIntmax 10000)))
        (PPBinOp.apply .mul (toIntmax c) (toIntmax 100))) (toIntmax d)) := rfl

/-- Without its cast, `NVCV_MAKE_VERSION4` evaluates in `#if` to the number it makes in C. -/
theorem ppIf_nvcvMakeVersion4Body (v : Version) :
    ppIf (nvcvMakeVersion4Body [.number v.major.toNat] [.number v.minor.toNat]
      [.number v.patch.toNat] [.number v.tweak.toNat]) = .ok (v.num.toNat : Int) := by
  have := v.major_nonneg; have := v.major_fits; have := v.minor_nonneg; have := v.minor_le
  have := v.patch_nonneg; have := v.patch_le; have := v.tweak_nonneg; have := v.tweak_le
  have hsmall : ∀ x : Int, 0 ≤ x → x ≤ 2147483647 → toIntmax x = x := fun x h0 h1 =>
    toIntmax_of_lt (by omega) (by omega)
  rw [ppIf_nvcvMakeVersion4Body_eq, v.toNat_num]
  simp (disch := omega) only [PPBinOp.apply, Int.toNat_of_nonneg, hsmall]

/-! ## The version checks in `#if` -/

/-- The range check on a user's `NVCV_VERSION_API` is rejected, whatever the selection. -/
theorem ppIf_nvcvVersionApiCheckTokens (api : List PPToken) :
    ∃ e, ppIf (nvcvVersionApiCheckTokens api) = .error e := by
  obtain ⟨e, he⟩ := ppIf_of_nvcvMakeVersion4 (api ++ [.op .lt]) ([.op .orOr] ++ api ++ [.op .gt] ++
    nvcvMakeVersion2Tokens [.number 0] [.number 3]) [.number 0] [.number 0] [.number 0] [.number 0]
  exact ⟨e, by simpa only [nvcvVersionApiCheckTokens, nvcvMakeVersion1Tokens, List.append_assoc]
    using he⟩

/-- A header that includes `VersionDef.h` with `NVCV_VERSION_API` defined never preprocesses: the
`#if` line stops it before the version is checked. -/
theorem nvcvVersionApi_some (api : List PPToken) :
    ∃ e, nvcvVersionApi (some api) = .error (.ifRejected e) := by
  obtain ⟨e, he⟩ := ppIf_nvcvVersionApiCheckTokens api
  exact ⟨e, by simp only [nvcvVersionApi, he]⟩

/-- In `#if`, the preprocessor rejects the range check of `VersionDef.h` for every
`NVCV_VERSION_API` a user defines, and `NVCV_VERSION_API_IS`, `_AT_LEAST`, `_AT_MOST` and
`_IN_RANGE` for every selection and every argument, all at the `(uint32_t)` cast of
`NVCV_MAKE_VERSION4`: the arithmetic inside the cast evaluates to the version's number. -/
theorem nvcvVersionApi_if_rejected :
    (∀ api : List PPToken, ∃ e, ppIf (nvcvVersionApiCheckTokens api) = .error e) ∧
    (∀ api major minor : List PPToken,
      ppIf (nvcvVersionApiIsTokens api major minor) = .error .missingBinaryOperator ∧
      ppIf (nvcvVersionApiAtLeastTokens api major minor) = .error .missingBinaryOperator ∧
      ppIf (nvcvVersionApiAtMostTokens api major minor) = .error .missingBinaryOperator) ∧
    (∀ api minMajor minMinor maxMajor maxMinor : List PPToken,
      ppIf (nvcvVersionApiInRangeTokens api minMajor minMinor maxMajor maxMinor) =
        .error .missingBinaryOperator) ∧
    ∀ v : Version, ppIf (nvcvMakeVersion4Body [.number v.major.toNat] [.number v.minor.toNat]
      [.number v.patch.toNat] [.number v.tweak.toNat]) = .ok (v.num.toNat : Int) := by
  -- `_IS`, `_AT_LEAST` and `_AT_MOST` differ only in their comparison
  have hcompare : ∀ (o : PPBinOp) (api major minor : List PPToken),
      ppIf ([.lparen] ++ nvcvMakeVersion2Tokens major minor ++ [.op o] ++ api ++ [.rparen]) =
        .error .missingBinaryOperator := fun o api major minor => by
    have := @ppIf_nvcvMakeVersion4_of_wantValue [.lparen] _ rfl rfl major minor [.number 0]
      [.number 0] ([.op o] ++ api ++ [.rparen])
    simpa only [nvcvMakeVersion2Tokens, List.append_assoc] using this
  refine ⟨ppIf_nvcvVersionApiCheckTokens, fun api major minor =>
      ⟨hcompare .eqEq api major minor, hcompare .le api major minor, hcompare .ge api major minor⟩,
    fun api a b c d => ?_, ppIf_nvcvMakeVersion4Body⟩
  have := @ppIf_nvcvMakeVersion4_of_wantValue [.lparen, .lparen] _ rfl rfl a b [.number 0]
    [.number 0] ([.op .le] ++ api ++ [.rparen] ++ [.op .andAnd] ++ nvcvVersionApiAtMostTokens api c d ++
      [.rparen])
  simpa only [nvcvVersionApiInRangeTokens, nvcvVersionApiAtLeastTokens, nvcvMakeVersion2Tokens,
    List.append_assoc, List.cons_append, List.singleton_append] using this

end CvCuda.VersionDef
