import PortVpn.Config.Composition
import PortVpn.Config.PassThrough
import PortVpn.Lib.TwoRuns

/-!
# The order of the options

`parseConfig` keeps the argument lists of one option in the order of the file, and forgets how the
lines of different options were mixed. A conversion reads the map by name until it writes down what
is left of it, so that two files which give the same argument lists under every name import as the
same profile, but for the order of its custom options (`convertProfile_reordered`). Parts of a
file that have no option in common can be exchanged (`importConfig_swap`).
-/

set_option autoImplicit false

namespace PortVpn.Config

open PortVpn.Lib

/-! ## Maps with the same entries -/

namespace Options

variable {o o' : Options} {name : String} {v : List Args}

/-- Two maps have the same entries, in any order. -/
structure Same (o o' : Options) : Prop where
  perm : o.Perm o'
  distinct : o.Distinct

theorem Distinct.find_eq_some_iff (h : o.Distinct) : o.find name = some v ↔ (name.toList, v) ∈ o := by
  refine ⟨mem_of_find, fun hm => ?_⟩
  induction o with
  | nil => exact absurd hm List.not_mem_nil
  | cons e o ih =>
      obtain ⟨hnot, hd⟩ := List.nodup_cons.1 h
      rw [find]
      rcases List.mem_cons.1 hm with rfl | hm
      · exact if_pos rfl
      · rw [if_neg, ih hd hm]
        rintro heq
        exact hnot (heq ▸ List.mem_map_of_mem hm)

theorem Same.symm (h : o.Same o') : o'.Same o :=
  ⟨h.perm.symm, ((h.perm.map Prod.fst).nodup_iff).1 h.distinct⟩

theorem Same.find (h : o.Same o') (name : String) : o.find name = o'.find name := by
  refine Option.ext fun v => ?_
  rw [h.distinct.find_eq_some_iff, h.symm.distinct.find_eq_some_iff, h.perm.mem_iff]

theorem Same.remove (h : o.Same o') (name : String) : (o.remove name).Same (o'.remove name) :=
  ⟨h.perm.filter _, List.Nodup.sublist ((List.filter_sublist).map _) h.distinct⟩

theorem map_fst_put (name : String) (v : List Args) (o : Options) :
    (put name v o).map Prod.fst = (add name.toList [] o).map Prod.fst := by
  induction o with
  | nil => rfl
  | cons e o ih =>
      obtain ⟨key, w⟩ := e
      rw [put, add]
      split
      · rfl
      · rw [List.map_cons, List.map_cons, ih]

theorem Distinct.put (h : o.Distinct) (name : String) (v : List Args) : (put name v o).Distinct := by
  rw [Distinct, map_fst_put]
  exact h.add

theorem Same.put (h : o.Same o') (name : String) (v : List Args) :
    (o.put name v).Same (o'.put name v) := by
  refine ⟨(List.perm_ext_iff_of_nodup ?_ ?_).2 fun e => ?_, h.distinct.put name v⟩
  · exact (h.distinct.put name v).of_map
  · exact (h.symm.distinct.put name v).of_map
  · rw [mem_put_iff h.distinct, mem_put_iff h.symm.distinct, h.perm.mem_iff]

end Options

/-- Lines that agree name by name make the same map. -/
theorem same_collect {ds ds' : List Args} (h : ∀ name, given name ds = given name ds') :
    (collect ds).Same (collect ds') := by
  refine ⟨(List.perm_ext_iff_of_nodup ?_ ?_).2 fun e => ?_, Options.distinct_collect ds⟩
  · exact (Options.distinct_collect ds).of_map
  · exact (Options.distinct_collect ds').of_map
  · obtain ⟨key, v⟩ := e
    have hkey : (String.ofList key).toList = key := String.toList_ofList
    rw [← hkey, ← (Options.distinct_collect ds).find_eq_some_iff,
      ← (Options.distinct_collect ds').find_eq_some_iff, find_collect, find_collect, h]

/-! ## The groups of the conversion -/

/-- A computation of the parser that reads the map by name only. -/
abbrev ByName {α : Type} (x : Parser α) : Prop := Together Options.Same Eq x x

section Groups

variable {np : VpnProfile} {order : HashOrder}

theorem getAllOption_byName (option : String) (minarg maxarg : Nat) :
    ByName (getAllOption option minarg maxarg) := by
  intro o o' h
  rw [getAllOption, getAllOption, ← h.find option]
  split
  · exact .ok rfl h
  · split
    · exact .error _
    · exact .ok rfl (h.remove option)

theorem getOption_byName (option : String) (minarg maxarg : Nat) :
    ByName (getOption option minarg maxarg) :=
  .bind_eq (getAllOption_byName option minarg maxarg) fun _ => .pure rfl

theorem takePull_byName : ByName takePull := by
  intro o o' h
  rw [takePull, takePull, ← h.find "client", ← h.find "pull"]
  split
  · exact .ok rfl ((h.remove "pull").remove "client")
  · exact .ok rfl h

theorem convertRouting_byName (np : VpnProfile) : ByName (convertRouting np) :=
  .bind_eq takePull_byName fun _ => .bind_eq (getOption_byName _ _ _) fun _ =>
  .bind_eq (getAllOption_byName _ _ _) fun _ => .bind_eq (.lift _) fun _ =>
  .bind_eq (getAllOption_byName _ _ _) fun _ => .bind_eq (getOption_byName _ _ _) fun _ => .pure rfl

theorem convertTlsAuth_byName (np : VpnProfile) : ByName (convertTlsAuth np) :=
  .bind_eq (getAllOption_byName _ _ _) fun _ => .bind_eq (getOption_byName _ _ _) fun _ =>
  .bind_eq (getAllOption_byName _ _ _) fun _ => .bind_eq (getAllOption_byName _ _ _) fun _ =>
  .pure rfl

theorem convertDevice_byName (np : VpnProfile) : ByName (convertDevice np) :=
  .bind_eq (getOption_byName _ _ _) fun _ => .bind_eq (getOption_byName _ _ _) fun _ =>
  .bind_eq (.lift _) fun _ => .bind_eq (getOption_byName _ _ _) fun _ =>
  .bind_eq (.lift _) fun _ => .bind_eq (getOption_byName _ _ _) fun _ =>
  .bind_eq (.lift _) fun _ => .bind_eq (getAllOption_byName _ _ _) fun _ =>
  .bind_eq (getOption_byName _ _ _) fun _ => .bind_eq (.lift _) fun _ => .pure rfl

theorem convertCiphers_byName (np : VpnProfile) : ByName (convertCiphers np) :=
  .bind_eq (getOption_byName _ _ _) fun _ => .bind_eq (getOption_byName _ _ _) fun _ =>
  .bind_eq (getOption_byName _ _ _) fun _ => .bind_eq (getOption_byName _ _ _) fun _ =>
  .bind_eq (getOption_byName _ _ _) fun _ => .pure rfl

theorem convertCertificates_byName (np : VpnProfile) (noauthtypeset : Bool) :
    ByName (convertCertificates np noauthtypeset) :=
  .bind_eq (getOption_byName _ _ _) fun _ => .bind_eq (getOption_byName _ _ _) fun _ =>
  .bind_eq (getOption_byName _ _ _) fun _ => .bind_eq (getOption_byName _ _ _) fun _ =>
  .bind_eq (getOption_byName _ _ _) fun _ => .pure rfl

theorem convertVerification_byName (np : VpnProfile) : ByName (convertVerification np) :=
  .bind_eq (getOption_byName _ _ _) fun _ => .bind_eq (getOption_byName _ _ _) fun _ =>
  .bind_eq (getOption_byName _ _ _) fun _ => .bind_eq (getOption_byName _ _ _) fun _ =>
  .bind_eq (.lift _) fun _ => .bind_eq (getOption_byName _ _ _) fun _ => .pure rfl

theorem convertConnecting_byName (np : VpnProfile) : ByName (convertConnecting np) :=
  .bind_eq (getOption_byName _ _ _) fun _ => .bind_eq (getOption_byName _ _ _) fun _ =>
  .bind_eq (getOption_byName _ _ _) fun _ => .bind_eq (getOption_byName _ _ _) fun _ =>
  .bind_eq (getOption_byName _ _ _) fun _ => .bind_eq (getOption_byName _ _ _) fun _ => .pure rfl

theorem same_putRemoteTls {o o' : Options} (remotetls : Option (List Args)) (h : o.Same o') :
    (putRemoteTls remotetls o).Same (putRemoteTls remotetls o') := by
  unfold putRemoteTls
  split
  · exact h
  · split
    · exact h
    · exact h.put _ _

theorem convertRemoteCertTls_byName (np : VpnProfile) : ByName (convertRemoteCertTls np) :=
  .bind_eq (getAllOption_byName _ _ _) fun remotetls =>
  .bind_eq (.modify fun _ _ h => same_putRemoteTls remotetls h) fun _ => .pure rfl

theorem convertUser_byName (np : VpnProfile) (noauthtypeset : Bool) :
    ByName (convertUser np noauthtypeset) :=
  .bind_eq (getOption_byName _ _ _) fun _ => .bind_eq (getOption_byName _ _ _) fun _ => .pure rfl

/-- Outside of a block, no custom options are collected for a connection. -/
theorem parseConnectionOptions_byName (order : HashOrder) :
    ByName (parseConnectionOptions order none) :=
  .bind_eq (getOption_byName _ _ _) fun _ => .bind_eq (getOption_byName _ _ _) fun _ =>
  .bind_eq (getOption_byName _ _ _) fun _ => .bind_eq (.lift _) fun _ =>
  .bind_eq (getOption_byName _ _ _) fun _ => .bind_eq (.lift _) fun _ =>
  .bind_eq (getAllOption_byName _ _ _) fun _ => .bind .get fun _ _ _ =>
  .bind_eq (.lift _) fun _ => .pure rfl

theorem convertConnections_byName (order : HashOrder) (np : VpnProfile) :
    ByName (convertConnections order np) :=
  .bind_eq (parseConnectionOptions_byName order) fun _ =>
  .bind_eq (getAllOption_byName _ _ _) fun _ => .bind_eq (.lift _) fun _ =>
  .bind_eq (getOption_byName _ _ _) fun _ => .bind_eq (getOption_byName _ _ _) fun _ =>
  .bind_eq (.lift _) fun _ => .pure rfl

end Groups

/-! ## The profile -/

/-- Two profiles differ at most in the order of their custom options. -/
structure Reordered (np np' : VpnProfile) : Prop where
  others : np' = { np with mCustomConfigOptions := np'.mCustomConfigOptions }
  custom : ∃ (front : Text) (values values' : List (List Args)), values.Perm values' ∧
    np.mCustomConfigOptions = front ++ values.flatMap getOptionStrings ∧
    np'.mCustomConfigOptions = front ++ values'.flatMap getOptionStrings

namespace Reordered

variable {np np' : VpnProfile}

theorem refl (np : VpnProfile) : Reordered np np :=
  ⟨rfl, np.mCustomConfigOptions, [], [], .refl [], (List.append_nil _).symm,
    (List.append_nil _).symm⟩

theorem fixup (h : Reordered np np') : Reordered (fixup np) (fixup np') := by
  refine ⟨?_, h.custom⟩
  rw [h.others]
  rfl

end Reordered

theorem same_without {o o' : Options} (names : List String) (h : o.Same o') :
    (names.foldl (fun o option => o.remove option) o).Same
      (names.foldl (fun o option => o.remove option) o') := by
  induction names generalizing o o' with
  | nil => exact h
  | cons name names ih => exact ih (h.remove name)

theorem reordered_setCustomOptions {o o' : Options} (order : HashOrder) (h : o.Same o')
    (np : VpnProfile) : Reordered (setCustomOptions order o np) (setCustomOptions order o' np) := by
  have hlen : o'.length = o.length := h.perm.length_eq.symm
  refine ⟨?_, ?_⟩
  · simp only [setCustomOptions, hlen]
  · have hvalues : (order.values o).Perm (order.values o') :=
      (order.perm o).trans ((h.perm.map Prod.snd).trans (order.perm o').symm)
    by_cases hpos : o.length > 0
    · exact ⟨customComment ++ np.mCustomConfigOptions, _, _, hvalues,
        by simp only [setCustomOptions, if_pos hpos],
        by simp only [setCustomOptions, hlen, if_pos hpos]⟩
    · exact ⟨np.mCustomConfigOptions, [], [], .refl [],
        by simp only [setCustomOptions, if_neg hpos, List.flatMap_nil, List.append_nil],
        by simp only [setCustomOptions, hlen, if_neg hpos, List.flatMap_nil, List.append_nil]⟩

theorem checkIgnoreAndInvalidOptions_together (order : HashOrder) (np : VpnProfile) :
    Together Options.Same Reordered (checkIgnoreAndInvalidOptions order np)
      (checkIgnoreAndInvalidOptions order np) := by
  intro o o' h
  have hfind : (fun option : String => (o'.find option).isSome) =
      fun option => (o.find option).isSome := funext fun option => by rw [h.find]
  rw [checkIgnoreAndInvalidOptions, checkIgnoreAndInvalidOptions, hfind]
  split
  · exact .error _
  · have hleft := same_without ignoreOptions h
    exact .ok (reordered_setCustomOptions order hleft np) hleft

/-- The information of Access Server is read by name too. -/
theorem setMeta_congr {p q : ConfigParser} (h : ∀ name, p.metaGet name = q.metaGet name)
    (np : VpnProfile) : setMeta p np = setMeta q np := by
  rw [setMeta, setMeta, h, h]

theorem convertOptions_together {p q : ConfigParser} (order : HashOrder)
    (h : ∀ name, p.metaGet name = q.metaGet name) :
    Together Options.Same Reordered (convertOptions order p) (convertOptions order q) :=
  .bind_eq (convertRouting_byName _) fun _ => .bind_eq (convertTlsAuth_byName _) fun _ =>
  .bind_eq (convertDevice_byName _) fun _ => .bind_eq (convertCiphers_byName _) fun _ =>
  .bind_eq (convertCertificates_byName _ _) fun _ => .bind_eq (convertVerification_byName _) fun _ =>
  .bind_eq (convertConnecting_byName _) fun _ => .bind_eq (convertRemoteCertTls_byName _) fun _ =>
  .bind_eq (convertUser_byName _ _) fun _ => .bind_eq (convertConnections_byName order _) fun np =>
  setMeta_congr h np ▸ checkIgnoreAndInvalidOptions_together order (setMeta p np)

/-- Two imports end alike: with the same error, or with profiles that differ at most in the order of
their custom options. -/
inductive EndAlike : Except Thrown VpnProfile → Except Thrown VpnProfile → Prop
  | error (e : Thrown) : EndAlike (.error e) (.error e)
  | ok {np np' : VpnProfile} (h : Reordered np np') : EndAlike (.ok np) (.ok np')

theorem EndAlike.refl (r : Except Thrown VpnProfile) : EndAlike r r := by
  cases r with
  | error e => exact .error e
  | ok np => exact .ok (.refl np)

/-- **A conversion does not see how the lines of different options are mixed.** -/
theorem convertProfile_reordered {p q : ConfigParser} (order : HashOrder)
    (hoptions : p.options.Same q.options) (hmeta : ∀ name, p.metaGet name = q.metaGet name) :
    EndAlike (convertProfile order p) (convertProfile order q) := by
  have hends := convertOptions_together order hmeta p.options q.options hoptions
  rw [convertProfile, convertProfile]
  generalize convertOptions order p p.options = r, convertOptions order q q.options = s at hends
  cases hends with
  | error e => exact .error e
  | ok hresult hstate => exact .ok hresult.fixup

/-! ## Exchanging two parts of a file -/

theorem metaGet_foldl_keep (entries : List Entry) (p : ConfigParser) (name : Text) :
    (entries.foldl ConfigParser.keep p).metaGet name =
      ((entries.foldl ConfigParser.keep {}).metaGet name).or (p.metaGet name) := by
  induction entries generalizing p with
  | nil => rfl
  | cons e entries ih =>
      rw [List.foldl_cons, List.foldl_cons, ih, ih (ConfigParser.keep {} e), Option.or_assoc]
      congr 1
      cases e with
      | option args => rfl
      | metaarg parts =>
          show List.lookup name ((parts.headD [], parts) :: p.metaargs) =
            (List.lookup name [(parts.headD [], parts)]).or (List.lookup name p.metaargs)
          rw [List.lookup_cons, List.lookup_cons]
          split <;> rfl

/-- Two parsers have found nothing under the same name. -/
structure ConfigParser.Apart (p q : ConfigParser) : Prop where
  options : ∀ name, p.options.find name = none ∨ q.options.find name = none
  metaargs : ∀ name, p.metaGet name = none ∨ q.metaGet name = none

/-- Entries under different names can be kept in any order. -/
theorem endAlike_keep_swap {ea eb ec : List Entry} (order : HashOrder)
    (h : (ea.foldl ConfigParser.keep {}).Apart (eb.foldl ConfigParser.keep {})) :
    EndAlike (convertProfile order ((ea ++ eb ++ ec).foldl ConfigParser.keep {}))
      (convertProfile order ((eb ++ ea ++ ec).foldl ConfigParser.keep {})) := by
  have hfind : ∀ (es : List Entry) (name : String),
      (es.foldl ConfigParser.keep {}).options.find name = none → given name (directives es) = [] := by
    intro es name hnone
    rw [foldl_keep_options, find_foldl_add] at hnone
    by_contra hne
    rw [if_neg hne] at hnone
    exact nomatch hnone
  have hdirectives : ∀ es es' : List Entry, directives (es ++ es') = directives es ++ directives es' :=
    fun _ _ => List.filterMap_append
  refine convertProfile_reordered order ?_ fun name => ?_
  · rw [foldl_keep_options, foldl_keep_options]
    refine same_collect fun name => ?_
    simp only [hdirectives, given_append]
    rcases h.options name with hnone | hnone
    · simp [hfind ea name hnone]
    · simp [hfind eb name hnone]
  · have hthree : ∀ es es' : List Entry,
        ((es ++ es' ++ ec).foldl ConfigParser.keep {}).metaGet name =
          ((ec.foldl ConfigParser.keep {}).metaGet name).or
            (((es'.foldl ConfigParser.keep {}).metaGet name).or
              ((es.foldl ConfigParser.keep {}).metaGet name)) := by
      intro es es'
      rw [List.foldl_append, List.foldl_append, metaGet_foldl_keep ec, metaGet_foldl_keep es']
    rw [hthree, hthree]
    rcases h.metaargs name with hnone | hnone <;> simp [hnone]

variable {a b c : Text} {p q : ConfigParser}

/-- **Two parts of a file that have no option in common can be exchanged**, whatever follows them. -/
theorem importConfig_swap (order : HashOrder) (ha : WholeLines a) (hb : WholeLines b)
    (hmarka : a.head? ≠ some '\uFEFF') (hmarkb : b.head? ≠ some '\uFEFF')
    (hpa : parseConfig a = .ok p) (hpb : parseConfig b = .ok q) (hapart : p.Apart q) :
    EndAlike (importConfig order (a ++ (b ++ c))) (importConfig order (b ++ (a ++ c))) := by
  by_cases hane : a = []
  · subst hane
    exact .refl _
  by_cases hbne : b = []
  · subst hbne
    exact .refl _
  have hleft := parseConfig_append (b := b ++ c) ha hane hpa
  have hright := parseConfig_append (b := a ++ c) hb hbne hpb
  obtain ⟨ea, hea, rfl⟩ := map_eq_ok hpa
  obtain ⟨eb, heb, rfl⟩ := map_eq_ok hpb
  rw [readOn_append _ hb (readEntries_of_entriesOf hmarkb heb)] at hleft
  rw [readOn_append _ ha (readEntries_of_entriesOf hmarka hea)] at hright
  rw [importConfig, importConfig, hleft, hright, ConfigParser.readOn, ConfigParser.readOn]
  cases readEntries (readLines c).length (readLines c) with
  | error e => exact .error e
  | ok ec =>
      have hswap : EndAlike (convertProfile order ((ea ++ eb ++ ec).foldl ConfigParser.keep {}))
          (convertProfile order ((eb ++ ea ++ ec).foldl ConfigParser.keep {})) :=
        endAlike_keep_swap order hapart
      simp only [List.foldl_append] at hswap
      exact hswap

theorem importConfig_swap_ca :
    EndAlike (importConfig insertionOrder
        ("dev tun\n".toList ++ ("<ca>\nMII\n</ca>\n".toList ++ "remote a\n".toList)))
      (importConfig insertionOrder
        ("<ca>\nMII\n</ca>\n".toList ++ ("dev tun\n".toList ++ "remote a\n".toList))) := by
  have hdev : parseConfig "dev tun\n".toList =
      .ok ⟨[("dev".toList, [["dev".toList, "tun".toList]])], []⟩ := rfl
  have hca : parseConfig "<ca>\nMII\n</ca>\n".toList =
      .ok ⟨[("ca".toList, [["ca".toList, "[[INLINE]]MII".toList]])], []⟩ := rfl
  refine importConfig_swap insertionOrder (.inr rfl) (.inr rfl) (by decide) (by decide) hdev hca
    ⟨fun name => ?_, fun name => .inl rfl⟩
  by_cases hname : "dev".toList = name.toList
  · obtain rfl := String.toList_inj.1 hname
    exact .inr rfl
  · exact .inl (if_neg hname)

end PortVpn.Config
