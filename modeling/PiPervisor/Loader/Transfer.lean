import PiPervisor.Loader.Exchange

/-! # Boot transfer

Whatever the timing, the program arrives and the Pi branches to it, or it is refused
because it overlaps the loader: one schedule leads there, and all others end alike. The
exception is junk of such a length that the count of the bytes has just wrapped when the
first opcode is complete; the loader then misses it, and both sides wait for good.
-/
namespace PiPervisor.Loader
open Library.Channels Library.Transition

variable {start stop addr : BitVec 32} {buf junk : List Byte}

section Completion
variable {x y : Exchange} {es : List Event} {Good : Exchange → Prop}

theorem count_host_add_arrive (es : List Event) :
    es.count .host + es.count .arrive ≤ es.length := by
  induction es with
  | nil => exact Nat.le_refl _
  | cons e es ih =>
    rw [List.length_cons]
    cases e <;> simp only [List.count_cons_self, List.count_cons_of_ne, ne_eq, reduceCtorEq,
      not_false_eq_true] <;> omega

/-- One schedule of the patient loader decides for all schedules. -/
theorem completes_of_abs
    (hend : ∀ r, ∃ es t, run (Link.step (patient start stop) (HostPc.act addr buf)) (x.abs r) es =
      some t ∧ (∀ side, t.step (patient start stop) (HostPc.act addr buf) side = none) ∧
      ∀ y : Exchange, y.abs 0 = t → Good y) : Completes start stop addr buf x Good := by
  have hconfluent {r : ℕ} {es : List Side} {t : PatientLink}
      (hes : run (Link.step (patient start stop) (HostPc.act addr buf)) (x.abs r) es = some t)
      (hstop : ∀ side, t.step (patient start stop) (HostPc.act addr buf) side = none)
      {sides : List Side} {u : PatientLink}
      (hu : run (Link.step (patient start stop) (HostPc.act addr buf)) (x.abs r) sides = some u) :=
    exists_run_of_run (fun _ _ _ _ _ hne h1 h2 => Link.step_commutes hne h1 h2) hes hstop hu
  refine ⟨fun k => ?_, fun es' y hy => ?_⟩
  · obtain ⟨es, t, hes, hstop, -⟩ := hend k
    refine ⟨2 * es.length + x.line.length, fun es' y hy hcount => ?_⟩
    obtain ⟨sides, hsides, hlen⟩ := Exchange.abs_run hy
    rw [hcount] at hsides
    obtain ⟨more, -, hmore⟩ := hconfluent hes hstop hsides
    have harrive := Exchange.count_arrive hy
    have hhost := count_host_add_arrive es'
    omega
  · obtain ⟨es, t, hes, hstop, hgood⟩ := hend (es'.count .timeout)
    obtain ⟨sides, hsides, -⟩ := Exchange.abs_run hy
    obtain ⟨more, hmore, -⟩ := hconfluent hes hstop hsides
    cases more with
    | nil => exact .inl (hgood y (Option.some.inj hmore))
    | cons side more =>
      rw [run_cons, Option.bind_eq_some_iff] at hmore
      obtain ⟨l, hl, -⟩ := hmore
      exact .inr (Exchange.step_of_abs hl)

/-- An exchange that completes can do so without a timeout. -/
theorem Completes.exists_good (h : Completes start stop addr buf x Good) :
    ∃ es y, run (Exchange.step start stop addr buf) x es = some y ∧ es.count .timeout = 0 ∧
      Good y := by
  obtain ⟨bound, hbound⟩ := h.1 0
  have hgo (n : ℕ) (es : List Event) (y : Exchange)
      (hy : run (Exchange.step start stop addr buf) x es = some y) (hcount : es.count .timeout = 0)
      (hn : bound ≤ es.length + n) : ∃ es y, run (Exchange.step start stop addr buf) x es = some y ∧
        es.count .timeout = 0 ∧ Good y := by
    induction n generalizing es y with
    | zero =>
      rcases h.2 es y hy with hgood | ⟨e, hne, he⟩
      · exact ⟨es, y, hy, hcount, hgood⟩
      · obtain ⟨y', hy'⟩ := Option.isSome_iff_exists.mp he
        have hrun : run (Exchange.step start stop addr buf) x (es ++ [e]) = some y' := by
          rw [run_append, hy, Option.bind_some, run_cons, hy']
          rfl
        have hcount' : (es ++ [e]).count .timeout = 0 := by
          rw [List.count_append, hcount, List.count_cons_of_ne hne]
          rfl
        have hlen := hbound _ _ hrun hcount'
        rw [List.length_append, List.length_singleton] at hlen
        omega
    | succ n ih =>
      rcases h.2 es y hy with hgood | ⟨e, hne, he⟩
      · exact ⟨es, y, hy, hcount, hgood⟩
      · obtain ⟨y', hy'⟩ := Option.isSome_iff_exists.mp he
        refine ih (es ++ [e]) y' ?_ ?_ ?_
        · rw [run_append, hy, Option.bind_some, run_cons, hy']
          rfl
        · rw [List.count_append, hcount, List.count_cons_of_ne hne]
          rfl
        · rw [List.length_append, List.length_singleton]
          omega
  exact hgo bound [] x rfl rfl (by omega)

end Completion

section Patience
variable {stored : List (BitVec 32 × Byte)}

/-- Once the loader has asked often enough, it is the loader. -/
theorem solo_patient {s s' : PiState} {input input' output : List Byte}
    (h : Solo (PiState.act start stop) s input s' input' output) :
    Solo (patient start stop) (s, 0) input (s', 0) input' output := by
  induction h with
  | refl => exact .refl _ _
  | head hstep _ ih =>
    refine .head ?_ ih
    rw [patient_eq fun _ => rfl, Act.step_map, hstep]
    rfl

theorem solo_patient_put (bytes input : List Byte) (next : PiPc) (r : ℕ) :
    Solo (patient start stop) (⟨.put bytes next, stored⟩, r) input (⟨next, stored⟩, r) input
      bytes := by
  have hact (bytes : List Byte) : patient start stop (⟨.put bytes next, stored⟩, r) =
      (PiState.act start stop ⟨.put bytes next, stored⟩).map fun s => (s, r) :=
    patient_eq nofun
  induction bytes with
  | nil => exact .silent (hact []) (.refl _ _)
  | cons byte bytes ih => exact .put (hact (byte :: bytes)) ih

theorem solo_ask (input : List Byte) (r : ℕ) :
    Solo (patient start stop) (⟨askForProgram, stored⟩, r) input (⟨.poll, stored⟩, 0) input
      (List.replicate (r + 1) (bootPutuint32 getProgInfo)).flatten := by
  induction r with
  | zero => exact solo_patient_put _ _ _ _
  | succ r ih =>
    rw [List.replicate_succ, List.flatten_cons]
    refine (solo_patient_put _ _ _ _).trans (.silent ?_ ih)
    exact if_pos ⟨rfl, Nat.succ_ne_zero r⟩

end Patience

section Memory

/-- A byte of the program is in the range of the loader. -/
def Overlaps (start stop addr : BitVec 32) (n : ℕ) : Prop :=
  ∃ x : BitVec 32, start ≤ x ∧ x < stop ∧ addr ≤ x ∧ x.toNat < addr.toNat + n

/-- The test of the loader is right if the range of the program does not wrap. -/
theorem collides_of_overlaps {n : ℕ} {info : ProgInfo} (ha : info.baseAddr = addr)
    (hn : info.nbytes.toNat = n) (hfit : addr.toNat + n < 2 ^ 32)
    (ho : Overlaps start stop addr n) : collides start stop info = true := by
  obtain ⟨x, hstart, hstop, hlo, hhi⟩ := ho
  rw [BitVec.le_def] at hstart hlo
  rw [BitVec.lt_def] at hstop
  rw [collides_iff, ha, hn, Nat.mod_eq_of_lt hfit]
  omega

theorem not_collides_of_not_overlaps {n : ℕ} {info : ProgInfo} (hrange : start < stop)
    (ha : info.baseAddr = addr) (hn : info.nbytes.toNat = n) (hpos : 0 < n)
    (hfit : addr.toNat + n ≤ 2 ^ 32) (ho : ¬ Overlaps start stop addr n) :
    ¬ collides start stop info = true := by
  rw [collides_iff, ha, hn]
  rintro ⟨hend, hbase⟩
  have hlt : addr.toNat + n < 2 ^ 32 := by
    by_contra hge
    have he : addr.toNat + n = 2 ^ 32 := by omega
    rw [he, Nat.mod_self] at hend
    omega
  rw [Nat.mod_eq_of_lt hlt] at hend
  apply ho
  by_cases hle : addr ≤ start
  · exact ⟨start, BitVec.le_refl _, hrange, hle, hend⟩
  · have hge : start ≤ addr := BitVec.le_of_lt (BitVec.not_le.mp hle)
    exact ⟨addr, hge, BitVec.lt_def.mpr hbase, BitVec.le_refl _, by omega⟩

/-- The memory after the bytes have been stored. -/
def memoryAfter (mem : BitVec 32 → Byte) (stored : List (BitVec 32 × Byte)) : BitVec 32 → Byte :=
  stored.foldl (fun mem (addr, byte) => Function.update mem addr byte) mem

/-- The bytes of a program land where it is to be loaded, and nowhere else. -/
theorem memoryAfter_storedFrom (code : List Byte) (i : ℕ) (mem : BitVec 32 → Byte)
    (hfit : addr.toNat + i + code.length ≤ 2 ^ 32) (x : BitVec 32) :
    memoryAfter mem (storedFrom addr i code) x =
      if addr.toNat + i ≤ x.toNat ∧ x.toNat < addr.toNat + i + code.length then
        code.getD (x.toNat - (addr.toNat + i)) 0
      else mem x := by
  induction code generalizing i mem with
  | nil =>
    rw [List.length_nil, if_neg (by omega)]
    rfl
  | cons byte code ih =>
    rw [List.length_cons] at hfit ⊢
    have hat : (addr + BitVec.ofNat 32 i).toNat = addr.toNat + i := by
      rw [BitVec.toNat_add, BitVec.toNat_ofNat, Nat.add_mod_mod, Nat.mod_eq_of_lt (by omega)]
    change memoryAfter (Function.update mem (addr + BitVec.ofNat 32 i) byte)
      (storedFrom addr (i + 1) code) x = _
    rw [ih (i + 1) _ (by omega)]
    by_cases hx : x = addr + BitVec.ofNat 32 i
    · have hxn : x.toNat = addr.toNat + i := (congrArg BitVec.toNat hx).trans hat
      rw [if_neg (by omega), if_pos (by omega), hxn, Nat.sub_self, hx, Function.update_self]
      rfl
    · have hxn : x.toNat ≠ addr.toNat + i := fun he => hx (BitVec.eq_of_toNat_eq (he.trans hat.symm))
      rw [Function.update_of_ne hx]
      by_cases hin : addr.toNat + (i + 1) ≤ x.toNat ∧ x.toNat < addr.toNat + (i + 1) + code.length
      · have hidx : x.toNat - (addr.toNat + i) = x.toNat - (addr.toNat + (i + 1)) + 1 := by omega
        rw [if_pos hin, if_pos (by omega), hidx, List.getD_cons_succ]
      · rw [if_neg hin, if_neg (by omega)]

theorem mem_storedFrom {code : List Byte} {i : ℕ} (hfit : addr.toNat + i + code.length ≤ 2 ^ 32) :
    ∀ w ∈ storedFrom addr i code,
      addr.toNat + i ≤ w.1.toNat ∧ w.1.toNat < addr.toNat + i + code.length := by
  induction code generalizing i with
  | nil => exact fun w hw => absurd hw List.not_mem_nil
  | cons byte code ih =>
    rw [List.length_cons] at hfit ⊢
    intro w hw
    have hcons : storedFrom addr i (byte :: code) =
        (addr + BitVec.ofNat 32 i, byte) :: storedFrom addr (i + 1) code := rfl
    rw [hcons] at hw
    rcases List.mem_cons.mp hw with rfl | hw
    · have hat : (addr + BitVec.ofNat 32 i).toNat = addr.toNat + i := by
        rw [BitVec.toNat_add, BitVec.toNat_ofNat, Nat.add_mod_mod, Nat.mod_eq_of_lt (by omega)]
      rw [hat]
      omega
    · have hrest := ih (by omega) w hw
      omega

end Memory

section Schedule
variable {stored : List (BitVec 32 × Byte)} {info : ProgInfo}

/-- The loader sees data and reads the header. -/
theorem solo_receive (hjunk : ¬ bootPutuint32 putProgInfo <:+: junk)
    (hcount : 4 ≤ (junk.length + 4) % 2 ^ 32) :
    Solo (PiState.act start stop) ⟨.poll, stored⟩
      (junk ++ bootPutuint32 putProgInfo ++ info.bytes) ⟨answer start stop info, stored⟩ [] [] := by
  have hwait : Solo (PiState.act start stop)
      ⟨.waitForOpcode putProgInfo 0 0 (.header []), stored⟩ _ _ _ _ :=
    solo_waitForOpcode (firstFound_append_bootPutuint32 junk unbordered_putProgInfo hjunk hcount)
      (.header []) info.bytes
  have hheader : Solo (PiState.act start stop) ⟨.header [], stored⟩ (info.bytes ++ []) _ _ _ :=
    solo_header [] info.bytes [] rfl
  rw [List.nil_append, progInfo_bytes, List.append_nil] at hheader
  obtain ⟨byte, rest, he⟩ : ∃ byte rest,
      junk ++ bootPutuint32 putProgInfo ++ info.bytes = byte :: rest :=
    List.exists_cons_of_ne_nil (by simp [bootPutuint32_eq])
  have hall := hwait.trans hheader
  rw [he] at hall ⊢
  exact .look rfl hall

/-- The loader stores a program of the announced length and branches to it. -/
theorem solo_boot (hlen : buf.length = info.nbytes.toNat) (haddr : info.baseAddr ≠ 0) :
    Solo (PiState.act start stop) ⟨.waitForOpcode putCode 0 0 (.load info 0), []⟩
      (bootPutuint32 putCode ++ buf) ⟨.branched info.baseAddr, storedFrom info.baseAddr 0 buf⟩ []
      (bootPutuint32 bootSuccess) := by
  have hwait : Solo (PiState.act start stop)
      ⟨.waitForOpcode putCode 0 0 (.load info 0), []⟩ (bootPutuint32 putCode ++ buf) _ _ _ :=
    solo_waitForOpcode firstFound_putCode _ buf
  have hload : Solo (PiState.act start stop) ⟨.load info 0, []⟩ (buf ++ []) _ _ _ :=
    solo_load info 0 buf [] (by omega)
  rw [List.append_nil] at hload
  have hfinish : Solo (PiState.act start stop)
      ⟨.load info (0 + buf.length), [] ++ storedFrom info.baseAddr 0 buf⟩ [] _ _ _ :=
    solo_finish info (0 + buf.length) [] (by omega)
  rw [if_neg haddr] at hfinish
  exact hwait.trans (hload.trans hfinish)

/-- A loader that waits for more of a header than is on its way waits for good. -/
theorem solo_header_starves (start stop : BitVec 32) (stored : List (BitVec 32 × Byte))
    (got input : List Byte) (hlen : got.length + input.length < 12) :
    ∃ s', Solo (PiState.act start stop) ⟨.header got, stored⟩ input s' [] [] ∧
      (s'.act start stop).step [] = none := by
  induction input generalizing got with
  | nil =>
    have hact : PiState.act start stop ⟨.header got, stored⟩ = _ := act_header hlen
    exact ⟨_, .refl _ _, congrArg (·.step []) hact⟩
  | cons byte input ih =>
    rw [List.length_cons] at hlen
    obtain ⟨s', hs', hstuck⟩ := ih (got ++ [byte]) (by
      rw [List.length_append, List.length_singleton]
      omega)
    exact ⟨s', .get (act_header (by omega)) hs', hstuck⟩

theorem solo_search_starves (start stop : BitVec 32) (stored : List (BitVec 32 × Byte))
    (expected window nbytes : BitVec 32) (input : List Byte)
    (hlen : input.length < 12 ∨ input.length = 12 ∧ (window ≠ expected ∨ nbytes < 4)) :
    ∃ s', Solo (PiState.act start stop)
        ⟨.waitForOpcode expected window nbytes (.header []), stored⟩ input s' [] [] ∧
      (s'.act start stop).step [] = none := by
  have hmatch {window nbytes : BitVec 32} {input : List Byte}
      (hcond : ¬ (window ≠ expected ∨ nbytes < 4)) (hshort : input.length < 12) :
      ∃ s', Solo (PiState.act start stop)
          ⟨.waitForOpcode expected window nbytes (.header []), stored⟩ input s' [] [] ∧
        (s'.act start stop).step [] = none := by
    obtain ⟨s', hs', hstuck⟩ := solo_header_starves start stop stored [] input
      (by rwa [List.length_nil, Nat.zero_add])
    exact ⟨s', .silent (if_neg hcond) hs', hstuck⟩
  induction input generalizing window nbytes with
  | nil =>
    by_cases hcond : window ≠ expected ∨ nbytes < 4
    · have hact : PiState.act start stop
          ⟨.waitForOpcode expected window nbytes (.header []), stored⟩ = _ :=
        act_waitForOpcode hcond _
      exact ⟨_, .refl _ _, congrArg (·.step []) hact⟩
    · exact hmatch hcond (by decide)
  | cons byte input ih =>
    by_cases hcond : window ≠ expected ∨ nbytes < 4
    · rw [List.length_cons] at hlen
      obtain ⟨s', hs', hstuck⟩ := ih (slideWindow window byte) (nbytes + 1) (.inl (by omega))
      exact ⟨s', .get (act_waitForOpcode hcond _) hs', hstuck⟩
    · exact hmatch hcond (hlen.resolve_right fun h => hcond h.2)

/-- A loader whose count wraps at the end of the first opcode misses it. -/
theorem solo_miss (start stop : BitVec 32) (stored : List (BitVec 32 × Byte)) (info : ProgInfo)
    (hjunk : ¬ bootPutuint32 putProgInfo <:+: junk)
    (hcount : (junk.length + 4) % 2 ^ 32 < 4) : ∃ s', Solo (PiState.act start stop)
        ⟨.poll, stored⟩ (junk ++ bootPutuint32 putProgInfo ++ info.bytes) s' [] [] ∧
      (s'.act start stop).step [] = none := by
  have hsearch : Solo (PiState.act start stop)
      ⟨.waitForOpcode putProgInfo 0 0 (.header []), stored⟩ _ _ _ _ :=
    solo_search putProgInfo (.header []) [] (junk ++ bootPutuint32 putProgInfo) info.bytes
      fun p hp hne => not_found_of_prefix unbordered_putProgInfo hjunk hp hne
  have hwrap : BitVec.ofNat 32 ([] ++ (junk ++ bootPutuint32 putProgInfo)).length < 4 := by
    rw [ofNat_lt_four, List.nil_append, List.length_append, bootPutuint32_length]
    exact hcount
  obtain ⟨s', hs', hstuck⟩ := solo_search_starves start stop stored putProgInfo
    (windowOf ([] ++ (junk ++ bootPutuint32 putProgInfo))) _ info.bytes (.inr ⟨rfl, .inr hwrap⟩)
  obtain ⟨byte, rest, he⟩ : ∃ byte rest,
      junk ++ bootPutuint32 putProgInfo ++ info.bytes = byte :: rest :=
    List.exists_cons_of_ne_nil (by simp [bootPutuint32_eq])
  have hall := hsearch.trans hs'
  rw [he] at hall ⊢
  exact ⟨s', .look rfl hall, hstuck⟩

end Schedule

section Outcome

/-- The loader has asked, and the installer has answered with the header. -/
theorem leads_to_header (start stop addr : BitVec 32) (buf junk : List Byte) (r : ℕ) :
    Link.Leads (patient start stop) (HostPc.act addr buf) ((Exchange.initial junk).abs r)
      ⟨(⟨.poll, []⟩, 0), .getOp true [],
        junk ++ bootPutuint32 putProgInfo ++ (programHeader addr buf).bytes, []⟩ := by
  have hask : Solo (patient start stop) (⟨askForProgram, []⟩, r) junk _ _ _ := solo_ask junk r
  have hhost : Solo (HostPc.act addr buf) (.getOp false []) _ _ _ _ :=
    (solo_host_header _).trans (solo_host_drain r [])
  rw [List.append_nil, List.append_nil, ← List.flatten_cons, ← List.replicate_succ] at hhost
  rw [List.append_assoc]
  exact (Link.leads_left hask _ []).trans (Link.leads_right hhost _ junk)

/-- The Pi has booted the program, and the host knows. -/
structure Transferred (addr : BitVec 32) (buf : List Byte) (y : Exchange) : Prop where
  host : y.host = .success
  branched : y.pi.pc = .branched addr
  memory : ∀ mem x, memoryAfter mem y.pi.stored x =
    if addr.toNat ≤ x.toNat ∧ x.toNat < addr.toNat + buf.length then
      buf.getD (x.toNat - addr.toNat) 0
    else mem x
  others : ∀ w ∈ y.pi.stored, addr.toNat ≤ w.1.toNat ∧ w.1.toNat < addr.toNat + buf.length

/-- The Pi has refused the program, and the host has given up. -/
structure Refused (y : Exchange) : Prop where
  host : y.host = .failure
  halted : y.pi.pc = .halted
  nothing : y.pi.stored = []

/-- How the exchange has to end. -/
def EndsWell (start stop addr : BitVec 32) (buf : List Byte) (y : Exchange) : Prop :=
  (¬ Overlaps start stop addr buf.length → Transferred addr buf y) ∧
    (Overlaps start stop addr buf.length → Refused y)

theorem step_none_of_patient {s : PiState} {t : HostPc} {toHost : List Byte}
    (hpi : (s.act start stop).step [] = none) (hhost : (t.act addr buf).step toHost = none) :
    ∀ side, Link.step (patient start stop) (HostPc.act addr buf) ⟨(s, 0), t, [], toHost⟩ side =
      none := by
  intro side
  cases side with
  | left =>
    rw [Link.step, patient_eq fun _ => rfl, Act.step_map, hpi]
    rfl
  | right =>
    rw [Link.step, hhost]
    rfl

theorem programHeader_nbytes (haddr : addr ≠ 0) (hfit : addr.toNat + buf.length ≤ 2 ^ 32) :
    (programHeader addr buf).nbytes.toNat = buf.length := by
  have hpos : addr.toNat ≠ 0 := fun h => haddr (BitVec.eq_of_toNat_eq h)
  change (BitVec.ofNat 32 buf.length).toNat = _
  rw [BitVec.toNat_ofNat, Nat.mod_eq_of_lt (by omega)]

/-- The schedule in which each side waits until it is asked, for a program that is accepted. -/
theorem leads_to_transferred (hjunk : ¬ bootPutuint32 putProgInfo <:+: junk)
    (hcount : 4 ≤ (junk.length + 4) % 2 ^ 32) (haddr : addr ≠ 0)
    (hlen : (programHeader addr buf).nbytes.toNat = buf.length)
    (hc : ¬ collides start stop (programHeader addr buf) = true) (r : ℕ) :
    Link.Leads (patient start stop) (HostPc.act addr buf) ((Exchange.initial junk).abs r)
      ⟨(⟨.branched addr, storedFrom addr 0 buf⟩, 0), .success, [], []⟩ := by
  have haccept : Solo (patient start stop) (⟨.poll, []⟩, 0) _ _ _ _ :=
    solo_patient ((solo_receive hjunk hcount).trans (solo_accept hc []))
  have hcode : Solo (HostPc.act addr buf) (.getOp true []) _ _ _ _ := solo_host_code []
  rw [List.append_nil] at hcode
  have hboot : Solo (patient start stop)
      (⟨.waitForOpcode putCode 0 0 (.load (programHeader addr buf) 0), []⟩, 0) _ _ _ _ :=
    solo_patient (solo_boot hlen.symm haddr)
  have hsuccess : Solo (HostPc.act addr buf) (.getResult []) _ _ _ _ := solo_host_success []
  rw [List.append_nil] at hsuccess
  apply (leads_to_header start stop addr buf junk r).trans
  refine (Link.leads_left haccept _ []).trans ((Link.leads_right hcode _ []).trans ?_)
  exact (Link.leads_left hboot _ []).trans (Link.leads_right hsuccess _ [])

theorem leads_to_refused (hjunk : ¬ bootPutuint32 putProgInfo <:+: junk)
    (hcount : 4 ≤ (junk.length + 4) % 2 ^ 32)
    (hc : collides start stop (programHeader addr buf) = true) (r : ℕ) :
    Link.Leads (patient start stop) (HostPc.act addr buf) ((Exchange.initial junk).abs r)
      ⟨(⟨.halted, []⟩, 0), .failure, [], []⟩ := by
  have hrefuse : Solo (patient start stop) (⟨.poll, []⟩, 0) _ _ _ _ :=
    solo_patient ((solo_receive hjunk hcount).trans (solo_refuse hc []))
  have hfailure : Solo (HostPc.act addr buf) (.getOp true []) _ _ _ _ := solo_host_refused []
  rw [List.append_nil] at hfailure
  apply (leads_to_header start stop addr buf junk r).trans
  exact (Link.leads_left hrefuse _ []).trans (Link.leads_right hfailure _ [])

theorem transferred_of_abs (haddr : addr.toNat + buf.length ≤ 2 ^ 32) {y : Exchange}
    (hy : y.abs 0 = ⟨(⟨.branched addr, storedFrom addr 0 buf⟩, 0), .success, [], []⟩) :
    Transferred addr buf y := by
  have hpi : y.pi = ⟨.branched addr, storedFrom addr 0 buf⟩ :=
    congrArg (fun l : PatientLink => l.left.1) hy
  have hhost : y.host = .success := congrArg Link.right hy
  refine ⟨hhost, congrArg PiState.pc hpi, fun mem x => ?_, fun w hw => ?_⟩
  · rw [hpi, memoryAfter_storedFrom buf 0 mem (by omega), Nat.add_zero]
  · rw [hpi] at hw
    have hin := mem_storedFrom (by omega) w hw
    omega

/-- The exchange completes unless the count of the bytes wraps. -/
theorem completes_of_count (hrange : start < stop) (haddr : addr ≠ 0) (hbuf : buf ≠ [])
    (hfit : addr.toNat + buf.length ≤ 2 ^ 32)
    (hwrap : Overlaps start stop addr buf.length → addr.toNat + buf.length < 2 ^ 32)
    (hjunk : ¬ bootPutuint32 putProgInfo <:+: junk) (hcount : 4 ≤ (junk.length + 4) % 2 ^ 32) :
    Completes start stop addr buf (Exchange.initial junk) (EndsWell start stop addr buf) := by
  have hlen := programHeader_nbytes haddr hfit
  apply completes_of_abs
  intro r
  by_cases ho : Overlaps start stop addr buf.length
  · have hc : collides start stop (programHeader addr buf) = true :=
      collides_of_overlaps rfl hlen (hwrap ho) ho
    obtain ⟨es, hes⟩ := leads_to_refused hjunk hcount hc r
    refine ⟨es, _, hes, step_none_of_patient rfl rfl, fun y hy => ?_⟩
    have hpi : y.pi = ⟨.halted, []⟩ := congrArg (fun l : PatientLink => l.left.1) hy
    have hhost : y.host = .failure := congrArg Link.right hy
    exact ⟨fun hno => absurd ho hno,
      fun _ => ⟨hhost, congrArg PiState.pc hpi, congrArg PiState.stored hpi⟩⟩
  · have hc : ¬ collides start stop (programHeader addr buf) = true :=
      not_collides_of_not_overlaps hrange rfl hlen (List.length_pos_iff.mpr hbuf) hfit ho
    obtain ⟨es, hes⟩ := leads_to_transferred hjunk hcount haddr hlen hc r
    exact ⟨es, _, hes, step_none_of_patient rfl rfl,
      fun y hy => ⟨fun _ => transferred_of_abs hfit hy, fun h => absurd h ho⟩⟩

/-- If it wraps, both sides wait for good. -/
theorem not_completes_of_count (hjunk : ¬ bootPutuint32 putProgInfo <:+: junk)
    (hcount : (junk.length + 4) % 2 ^ 32 < 4) :
    ¬ Completes start stop addr buf (Exchange.initial junk) (EndsWell start stop addr buf) := by
  intro hcompletes
  obtain ⟨es, y, hy, htimeout, hgood⟩ := hcompletes.exists_good
  obtain ⟨sides, hsides, -⟩ := Exchange.abs_run hy
  obtain ⟨s', hmiss, hstuck⟩ := solo_miss start stop [] (programHeader addr buf) hjunk hcount
  obtain ⟨es', hes'⟩ := (leads_to_header start stop addr buf junk 0).trans
    (Link.leads_left (solo_patient hmiss) _ [])
  rw [htimeout] at hsides
  obtain ⟨more, hmore, -⟩ := exists_run_of_run
    (fun _ _ _ _ _ hne h1 h2 => Link.step_commutes hne h1 h2) hes'
    (step_none_of_patient hstuck rfl) hsides
  have hhost : y.host = .success ∨ y.host = .failure := by
    by_cases ho : Overlaps start stop addr buf.length
    · exact .inr (hgood.2 ho).host
    · exact .inl (hgood.1 ho).host
  have hstop (l l' : PatientLink) (hl : l.right = .success ∨ l.right = .failure)
      (hrun : run (Link.step (patient start stop) (HostPc.act addr buf)) l more = some l') :
      l'.right = .success ∨ l'.right = .failure := by
    refine run_invariant (P := fun l : PatientLink => l.right = .success ∨ l.right = .failure)
      ?_ hl hrun
    rintro l side l' hl hstep
    cases side with
    | left =>
      obtain ⟨r, -, rfl⟩ := Option.map_eq_some_iff.mp hstep
      exact hl
    | right =>
      rcases hl with hl | hl <;> rw [Link.step, hl] at hstep <;> cases hstep
  rcases hstop _ _ hhost hmore with h | h <;> cases h

/-- Whatever the junk in front of the request and the schedule, the transfer comes to its end
exactly if the 32-bit count of the bytes up to the request has not wrapped to less than an opcode. -/
theorem transfer_completes_iff (start stop addr : BitVec 32) (buf junk : List Byte)
    (hrange : start < stop) (haddr : addr ≠ 0) (hbuf : buf ≠ [])
    (hfit : addr.toNat + buf.length ≤ 2 ^ 32)
    (hwrap : Overlaps start stop addr buf.length → addr.toNat + buf.length < 2 ^ 32)
    (hjunk : ¬ bootPutuint32 putProgInfo <:+: junk) :
    Completes start stop addr buf (Exchange.initial junk) (EndsWell start stop addr buf) ↔
      4 ≤ (junk.length + 4) % 2 ^ 32 := by
  refine ⟨fun h => ?_, completes_of_count hrange haddr hbuf hfit hwrap hjunk⟩
  by_contra hlt
  exact not_completes_of_count hjunk (Nat.not_le.mp hlt) h

/-- Three bytes for the usual address, behind a junk byte. -/
theorem transfer_completes_three : Completes 0x200000 0x201000 0x8000 [1, 2, 3]
    (Exchange.initial [0x55]) (EndsWell 0x200000 0x201000 0x8000 [1, 2, 3]) :=
  (transfer_completes_iff 0x200000 0x201000 0x8000 [1, 2, 3] [0x55] (by decide) (by decide)
    (by decide) (by decide) (fun _ => by decide) (by decide)).mpr (by decide)

/-- Four bytes short of 2 ^ 32 zeros: the count is zero when the opcode is complete. -/
theorem transfer_misses_opcode : ¬ Completes 0x200000 0x201000 0x8000 [1, 2, 3]
    (Exchange.initial (List.replicate (2 ^ 32 - 4) 0))
    (EndsWell 0x200000 0x201000 0x8000 [1, 2, 3]) := by
  refine not_completes_of_count (fun hin => ?_) ?_
  · have hmem : (0x44 : Byte) ∈ List.replicate (2 ^ 32 - 4) 0 :=
      hin.subset (by decide : (0x44 : Byte) ∈ bootPutuint32 putProgInfo)
    exact absurd (List.eq_of_mem_replicate hmem) (by decide)
  · rw [List.length_replicate]
    decide

end Outcome

end PiPervisor.Loader
