import FluxPmix.FenceUpcall
import FluxPmix.CodecDataLimits

/-! Which fence calls the shell thread enters the exchange for. The decision is stated without the
order of the attributes; the source comes to it attribute by attribute, with an `int` index. -/
namespace FluxPmix

/-- What a fence call asks for. -/
inductive FenceDecision where
  | entering (collect : Bool)
  | rejected (rc : Int32)
  deriving DecidableEq

/-- The whole job, by one proc of wildcard rank, and attributes that can all be met or ignored. -/
def fenceDecision (procs : List PmixProc) (infos : List PmixInfo) : FenceDecision :=
  match procs with
  | [proc] =>
    if proc.rank ≠ pmixRankWildcard then .rejected pmixErrNotSupported
    else if infos.all PmixInfo.tolerable then .entering (infos.any PmixInfo.collects)
    else .rejected pmixErrBadParam
  | _ => .rejected pmixErrNotSupported

theorem parseFenceAttr_intolerable (intolerable : info.tolerable = false) (collect : Bool) :
    parseFenceAttr collect info = (pmixErrBadParam, collect) := by
  rw [PmixInfo.tolerable] at intolerable
  rw [parseFenceAttr]
  split at intolerable
  · rename_i named
    rw [if_pos named]
    cases value : info.value with
    | bool flag => simp [value] at intolerable
    | _ => rfl
  · rename_i other
    rw [if_neg other, if_pos (by simpa using intolerable)]

section
variable {infos : List PmixInfo} {i left : Nat}

/-- The first attribute that is not tolerable is the last one looked at, when the index gets there. -/
theorem parseFenceAttrs_intolerable (index : i + left = intMax + 1)
    (reached : ∃ info ∈ infos.take left, info.tolerable = false) (collect : Bool) :
    ∃ collect', parseFenceAttrs i collect infos = .ok (pmixErrBadParam, collect') := by
  induction infos generalizing i left collect with
  | nil => simp at reached
  | cons info rest ih =>
    obtain ⟨bad, member, intolerable⟩ := reached
    cases left with
    | zero => simp at member
    | succ left =>
      rw [List.take_succ_cons, List.mem_cons] at member
      cases tolerable : info.tolerable with
      | false => exact ⟨collect, by rw [parseFenceAttrs, parseFenceAttr_intolerable tolerable]; rfl⟩
      | true =>
        have later : bad ∈ rest.take left := by
          rcases member with rfl | later
          · rw [tolerable] at intolerable
            contradiction
          · exact later
        have positive : 0 < left := by
          cases left with
          | zero => simp at later
          | succ => exact Nat.succ_pos _
        have below : i ≠ intMax := by omega
        have next : i + 1 + left = intMax + 1 := by omega
        obtain ⟨collect', refused⟩ := ih next ⟨bad, later, intolerable⟩ (info.collects || collect)
        exact ⟨collect', by simp [parseFenceAttrs, parseFenceAttr_tolerable tolerable, below, refused]⟩

/-- After `INT_MAX` tolerable attributes the index overflows. -/
theorem parseFenceAttrs_overflow (index : i + left = intMax + 1)
    (tolerable : ∀ info ∈ infos.take left, info.tolerable = true) (room : left ≤ infos.length)
    (positive : 0 < left) (collect : Bool) : parseFenceAttrs i collect infos = .error .undefined := by
  induction infos generalizing i left collect with
  | nil =>
    rw [List.length_nil] at room
    omega
  | cons info rest ih =>
    cases left with
    | zero => contradiction
    | succ left =>
      rw [List.take_succ_cons, List.forall_mem_cons] at tolerable
      rw [parseFenceAttrs, parseFenceAttr_tolerable tolerable.1]
      by_cases last : i = intMax
      · simp [last]
      · have next : i + 1 + left = intMax + 1 := by omega
        have others := ih next tolerable.2 (by simpa using room) (by omega) (info.collects || collect)
        simp [last, others]

end

/-! ### What the callback comes to -/

/-- A string that the trace message decodes into a buffer without room. -/
def Json.overruns : Json → Bool
  | .string text => FluxPmix.overruns text
  | _ => false

theorem codecDataLength_undefined (o : Json) : codecDataLength o = .error .undefined ↔ o.overruns = true := by
  have length : codecDataLength o = .error .undefined ↔ codecDataDecode o = .error .undefined := by
    rw [codecDataLength]
    cases codecDataDecode o <;> simp [bind, Except.bind, pure, Except.pure]
  rw [length]
  cases o with
  | string text => exact codecDataDecode_undefined
  | _ => exact iff_of_false error_defined Bool.false_ne_true

/-- There is a proc to look at. For the whole job, either an attribute within the range of the index
is not tolerable, or the index counts them all and the trace message can decode the data it reports. -/
def admissionGuarded (trace : Bool) (call : FenceCall) (xdata : Json) : Bool :=
  match call.procs with
  | [] => false
  | [proc] =>
    proc.rank ≠ pmixRankWildcard || !(call.info.take (intMax + 1)).all PmixInfo.tolerable ||
      (call.info.length ≤ intMax && !(trace && call.info.any PmixInfo.collects && xdata.overruns))
  | _ :: _ :: _ => true

/-- The admission that carries out the decision. -/
def FenceDecision.admission (call : FenceCall) (xdata : Json) : FenceDecision → Admission
  | .entering collect => .entering { call with collect := collect } (if collect then some xdata else none)
  | .rejected rc => .rejected call rc

section
variable [CFloat] {call : FenceCall} {xdata : Json} {fault : FenceFaults} {msg : Json}

theorem fenceUpcallUnpack_collect (unpacked : fenceUpcallUnpack msg = .ok (call, xdata)) : call.collect = false := by
  rw [fenceUpcallUnpack] at unpacked
  obtain ⟨members, _, unpacked⟩ := bind_ok.mp unpacked
  obtain ⟨procs, _, unpacked⟩ := bind_ok.mp unpacked
  obtain ⟨infos, _, unpacked⟩ := bind_ok.mp unpacked
  obtain ⟨cbfunc, _, unpacked⟩ := bind_ok.mp unpacked
  obtain ⟨cbdata, _, unpacked⟩ := bind_ok.mp unpacked
  split at unpacked
  · contradiction
  · cases unpacked
    rfl

omit [CFloat] in
/-- What the loop over the attributes comes to. -/
theorem parseFenceAttrs_decides (infos : List PmixInfo) :
    (infos.all PmixInfo.tolerable = false ∧ (infos.take (intMax + 1)).all PmixInfo.tolerable = false ∧
      ∃ collect, parseFenceAttrs 0 false infos = .ok (pmixErrBadParam, collect)) ∨
    ((infos.take (intMax + 1)).all PmixInfo.tolerable = true ∧ infos.all PmixInfo.tolerable = true ∧
      infos.length ≤ intMax ∧ parseFenceAttrs 0 false infos = .ok (pmixSuccess, infos.any PmixInfo.collects)) ∨
    ((infos.take (intMax + 1)).all PmixInfo.tolerable = true ∧ intMax < infos.length ∧
      parseFenceAttrs 0 false infos = .error .undefined) := by
  cases reached : (infos.take (intMax + 1)).all PmixInfo.tolerable with
  | false =>
    obtain ⟨bad, member, intolerable⟩ := List.all_eq_false.mp reached
    have refused := parseFenceAttrs_intolerable (Nat.zero_add _) ⟨bad, member, by simpa using intolerable⟩ false
    refine .inl ⟨?_, rfl, refused⟩
    exact List.all_eq_false.mpr ⟨bad, List.mem_of_mem_take member, intolerable⟩
  | true =>
    have tolerable := List.all_eq_true.mp reached
    rcases Nat.lt_or_ge intMax infos.length with long | counted
    · exact .inr (.inr ⟨rfl, long, parseFenceAttrs_overflow (Nat.zero_add _) tolerable long (Nat.succ_pos _) false⟩)
    · rw [List.take_of_length_le (by omega)] at reached tolerable
      have parsed := parseFenceAttrs_tolerable (i := 0) tolerable (by omega) false
      rw [Bool.or_false] at parsed
      exact .inr (.inl ⟨rfl, reached, counted, parsed⟩)

/-- The shell thread decides as it should, or its behaviour is undefined. -/
theorem fenceAdmit_decides (decodes : fault.decode = false) (unpacked : fenceUpcallUnpack msg = .ok (call, xdata)) :
    fenceAdmit fault msg = if admissionGuarded fault.trace call xdata
      then (fenceDecision call.procs call.info).admission call xdata else .undefined := by
  obtain ⟨procs, infos, cbfunc, cbdata, collect⟩ := call
  obtain rfl : collect = false := fenceUpcallUnpack_collect unpacked
  simp only [fenceAdmit, decodes, Bool.false_eq_true, if_false, unpacked]
  cases procs with
  | nil => simp [fenceCheck, admissionGuarded]
  | cons proc others =>
    cases others with
    | cons =>
      have failure : pmixErrNotSupported ≠ pmixSuccess := by decide
      simp [fenceCheck, admissionGuarded, fenceDecision, FenceDecision.admission, failure]
    | nil =>
      by_cases wildcard : proc.rank = pmixRankWildcard
      · have failure : pmixErrBadParam ≠ pmixSuccess := by decide
        simp only [fenceCheck, wildcard, if_true]
        rcases parseFenceAttrs_decides infos with ⟨refused, reached, collect, parsed⟩ |
          ⟨reached, tolerable, counted, parsed⟩ | ⟨reached, long, parsed⟩
        · simp [parsed, failure, admissionGuarded, reached, fenceDecision, wildcard, refused, FenceDecision.admission]
        · simp only [parsed, ne_eq, not_true_eq_false, if_false, admissionGuarded, wildcard, reached, counted,
            fenceDecision, tolerable, if_true, decide_true, decide_false, Bool.not_true, Bool.or_false, Bool.false_or,
            Bool.true_and, FenceDecision.admission]
          cases collects : infos.any PmixInfo.collects with
          | false => simp
          | true =>
            simp only [if_true, Bool.and_true]
            cases traced : fault.trace with
            | false => simp
            | true =>
              have length := codecDataLength_undefined xdata
              cases overrun : xdata.overruns with
              | true => simp [length.mpr overrun]
              | false =>
                rw [overrun] at length
                cases result : codecDataLength xdata with
                | ok count => simp
                | error failure =>
                  cases failure with
                  | error => simp
                  | undefined => exact absurd (length.mp result) Bool.false_ne_true
        · have uncounted : ¬ infos.length ≤ intMax := Nat.not_le.mpr long
          simp [parsed, admissionGuarded, wildcard, reached, uncounted]
      · have failure : pmixErrNotSupported ≠ pmixSuccess := by decide
        simp [fenceCheck, wildcard, admissionGuarded, fenceDecision, FenceDecision.admission, failure]

end

end FluxPmix
