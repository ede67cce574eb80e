import DataService.Sync.TileReads

/-! A tile that stands in S3 is served, whatever becomes of the cache: Redis can make a read slower,
not its answer another one. -/

namespace DataService.Sync

open FloatText NumberText

/-- The awaits that a read has left at most. -/
def ReadStage.left : ReadStage → Nat
  | .redis true => 3
  | .redis false => 2
  | .s3 => 1
  | _ => 0

/-- A read that has not failed, and has not been answered with anything else. -/
def ReadStage.Towards (data : TileData) : ReadStage → Prop
  | .redis _ | .s3 => True
  | .answered answer => answer = some data
  | .raised => False

namespace TileSite

variable {R : FloatReader} {reader : NumberReader} {cfg : TileConfig} {s t : TileSite}
  {data : TileData} {r : TileRead} {stage : ReadStage} {i : Nat} {p : PendingStore} {a : TileAction}

/-- The awaits of one read. -/
def OwnStep (i : Nat) : TileAction → Bool
  | .redisGet j _ => i = j
  | .s3Get j _ => i = j
  | _ => false

theorem reads_onS3Get (object : Option TileData) : (s.onS3Get cfg i r object).reads =
    (s.setStage i r (.answered (afterS3 r.address.unit object))).reads := by
  unfold TileSite.onS3Get
  split <;> rfl

theorem reads_onStore : (s.onStore p).reads = s.reads := by
  unfold TileSite.onStore
  split <;> rfl

theorem setStage_read {j : Nat} {q : TileRead} (hq : s.reads[j]? = some q) :
    (s.setStage j q stage).reads[i]? = if j = i then some { q with stage } else s.reads[i]? := by
  by_cases hji : j = i
  · subst hji
    have hlt := (List.getElem?_eq_some_iff.mp hq).1
    simp [TileSite.setStage, hlt]
  · simp [TileSite.setStage, List.getElem?_set_ne hji, hji]

/-- A read changes only in its own awaits. -/
theorem step_read (hs : step R reader cfg s a = some t) (hr : s.reads[i]? = some r) :
    t.reads[i]? = some r ∧ OwnStep i a = false ∨
    (∃ again ok, a = .redisGet i ok ∧ r.stage = .redis again ∧
      t.reads[i]? = some { r with stage := if ok then redisStage cfg s r again else .raised }) ∨
    ∃ reachable, a = .s3Get i reachable ∧ r.stage = .s3 ∧ t.reads[i]? = some { r with
      stage := .answered (afterS3 r.address.unit
        (if reachable then s.bucket.lookup r.address.s3Key else none)) } := by
  cases a with
  | wait seconds | upload key data | remove key | drop key =>
    cases hs
    exact .inl ⟨hr, rfl⟩
  | request address =>
    obtain rfl := step_request hs
    have hlt := (List.getElem?_eq_some_iff.mp hr).1
    exact .inl ⟨by simpa [List.getElem?_append_left hlt] using hr, rfl⟩
  | redisGet j ok =>
    obtain ⟨q, again, hq, hstage, rfl⟩ := step_redisGet hs
    by_cases hji : j = i
    · subst hji
      obtain rfl : q = r := Option.some.inj (hq.symm.trans hr)
      refine .inr (.inl ⟨again, ok, rfl, hstage, ?_⟩)
      cases ok <;> simp [TileSite.onRedisGet, setStage_read hq]
    · refine .inl ⟨?_, by simp [OwnStep, Ne.symm hji]⟩
      cases ok <;> simp [TileSite.onRedisGet, setStage_read hq, hji, hr]
  | s3Get j reachable =>
    obtain ⟨q, hq, hstage, rfl⟩ := step_s3Get hs
    by_cases hji : j = i
    · subst hji
      obtain rfl : q = r := Option.some.inj (hq.symm.trans hr)
      exact .inr (.inr ⟨reachable, rfl, hstage, by simp [reads_onS3Get, setStage_read hq]⟩)
    · exact .inl ⟨by simp [reads_onS3Get, setStage_read hq, hji, hr],
        by simp [OwnStep, Ne.symm hji]⟩
  | syncTile unit hnamed key =>
    obtain ⟨z, x, y, data, -, -, -, rfl⟩ := step_syncTile hs
    exact .inl ⟨hr, rfl⟩
  | store j ok =>
    obtain ⟨p, -, rfl⟩ := step_store hs
    refine .inl ⟨?_, rfl⟩
    split
    · rwa [reads_onStore]
    · exact hr

theorem left_redisStage (cfg : TileConfig) (s : TileSite) (r : TileRead) (again : Bool) :
    (redisStage cfg s r again).left < (ReadStage.redis again).left := by
  unfold redisStage
  split
  · cases again <;> simp [ReadStage.left]
  · cases again <;> cases cfg.s3Configured <;> simp [ReadStage.left]

theorem left_step (hs : step R reader cfg s a = some t) (hr : s.reads[i]? = some r) : ∃ r',
    t.reads[i]? = some r' ∧ r'.address = r.address ∧
      (if OwnStep i a then 1 else 0) + r'.stage.left ≤ r.stage.left := by
  rcases step_read hs hr with ⟨hsame, hother⟩ | ⟨again, ok, rfl, hstage, hnew⟩ |
    ⟨reachable, rfl, hstage, hnew⟩
  · exact ⟨r, hsame, rfl, by simp [hother]⟩
  · refine ⟨_, hnew, rfl, ?_⟩
    have hlt := left_redisStage cfg s r again
    have hraised : ReadStage.raised.left < (ReadStage.redis again).left := by
      cases again <;> simp [ReadStage.left]
    simp only [OwnStep, decide_true, if_true, hstage]
    split_ifs <;> omega
  · exact ⟨_, hnew, rfl, by simp [OwnStep, hstage, ReadStage.left]⟩

theorem left_run {as : List TileAction} (hr : s.reads[i]? = some r)
    (hrun : StepSystem.run (step R reader cfg) s as = some t) : ∃ r', t.reads[i]? = some r' ∧
      r'.address = r.address ∧ as.countP (OwnStep i) + r'.stage.left ≤ r.stage.left := by
  induction as generalizing s r with
  | nil =>
    obtain rfl : s = t := by simpa [StepSystem.run] using hrun
    exact ⟨r, hr, rfl, by simp⟩
  | cons a as ih =>
    obtain ⟨u, hu, ht⟩ := StepSystem.run_cons.mp hrun
    obtain ⟨r', hr', haddress', hle'⟩ := left_step hu hr
    obtain ⟨r'', hr'', haddress'', hle''⟩ := ih hr' ht
    refine ⟨r'', hr'', haddress''.trans haddress', ?_⟩
    rw [List.countP_cons]
    omega

/-- The object of the tile stays, nothing else is uploaded that may be kept under its key, and
neither store fails the awaits of the read. -/
def Kept (R : FloatReader) (reader : NumberReader) (a : TileAddress) (data : TileData) (i : Nat) :
    TileAction → Prop
  | .upload key d => Denotes R reader a.redisKey key → d = data
  | .remove key => key ≠ a.s3Key
  | .redisGet j ok => j = i → ok = true
  | .s3Get j reachable => j = i → reachable = true
  | _ => True

/-- A read on its way to the one object that has ever been kept under its key. -/
structure Serving (R : FloatReader) (reader : NumberReader) (a : TileAddress) (data : TileData)
    (i : Nat) (s : TileSite) : Prop where
  coherent : s.Coherent R reader
  object : s.bucket.lookup a.s3Key = some data
  only : ∀ key d, Denotes R reader a.redisKey key → (key, d) ∈ s.uploads → d = data
  read : ∃ r, s.reads[i]? = some r ∧ r.address = a ∧ r.stage.Towards data

section Serving

variable {address : TileAddress}

theorem serving_step (h : Serving R reader address data i s) (hs3 : cfg.s3Configured = true)
    (hne : data ≠ []) (hkept : Kept R reader address data i a)
    (hs : step R reader cfg s a = some t) : Serving R reader address data i t := by
  have hobjects : t.bucket.lookup address.s3Key = some data ∧ ∀ key d,
      Denotes R reader address.redisKey key → (key, d) ∈ t.uploads → d = data := by
    rcases step_objects hs with ⟨hbucket, huploads⟩ | ⟨key, d, rfl, hbucket, huploads⟩ |
      ⟨key, rfl, hbucket, huploads⟩
    · rw [hbucket, huploads]
      exact ⟨h.object, h.only⟩
    · rw [hbucket, huploads]
      constructor
      · by_cases hkey : address.s3Key = key
        · subst hkey
          rw [AList.lookup_insert, hkept (.tile address rfl)]
        · rw [AList.lookup_insert_ne hkey]
          exact h.object
      · intro key' d' hdenotes hd'
        rcases List.mem_cons.mp hd' with hnew | hold
        · obtain ⟨rfl, rfl⟩ := Prod.mk.inj hnew
          exact hkept hdenotes
        · exact h.only key' d' hdenotes hold
    · rw [hbucket, huploads, AList.lookup_erase_ne (Ne.symm hkept)]
      exact ⟨h.object, h.only⟩
  refine ⟨coherent_step h.coherent hs, hobjects.1, hobjects.2, ?_⟩
  obtain ⟨r, hr, rfl, htowards⟩ := h.read
  rcases step_read hs hr with ⟨hsame, -⟩ | ⟨again, ok, rfl, hstage, hnew⟩ |
    ⟨reachable, rfl, hstage, hnew⟩
  · exact ⟨r, hsame, rfl, htowards⟩
  · refine ⟨_, hnew, rfl, ?_⟩
    obtain rfl : ok = true := hkept rfl
    simp only [if_true, redisStage, hs3]
    split
    · -- what stands in Redis under this key is the object itself
      rename_i found hget
      obtain ⟨hfound, -⟩ := Option.filter_eq_some_iff.mp hget
      obtain ⟨slot, hslot, rfl⟩ := Option.map_eq_some_iff.mp hfound
      obtain ⟨key, hdenotes, hmem⟩ := h.coherent.redis _ slot (Option.filter_eq_some_iff.mp hslot).1
      exact congrArg some (h.only key _ hdenotes hmem)
    · cases again <;> trivial
  · refine ⟨_, hnew, rfl, ?_⟩
    obtain rfl : reachable = true := hkept rfl
    simp only [if_true, h.object, ReadStage.Towards]
    exact afterS3_found _ hne

end Serving

def evictedRead : List TileAction :=
  [.redisGet 0 true, .redisGet 0 true, .drop satelliteTile.redisKey, .s3Get 0 true]

end TileSite

end DataService.Sync
