/- module: SonicBmp/Bgp/CommunityText
   digest: The printed community and cluster lists determine the bytes they were printed from. -/

import SonicBmp.Bgp.AddressText
import SonicBmp.Bgp.Attributes

set_option autoImplicit false
set_option relaxedAutoImplicit false

namespace SonicBmp.Bgp.CommunityText

open SonicBmp.Library.Memory
open SonicBmp.Library.Loop (strideLoop_pieces)
open SonicBmp.Library.Printing
open SonicBmp.Bgp.Common
open SonicBmp.Bgp.Attributes
open SonicBmp.Bgp.AddressText (inetNtop4_injective)

/-- The attributes that are printed as a list of words. -/
inductive ListAttr
  | communities | largeCommunities | clusterList
  deriving DecidableEq

namespace ListAttr

def type : ListAttr → Nat
  | .communities => 8
  | .largeCommunities => 32
  | .clusterList => 10

def key : ListAttr → UpdateAttrType
  | .communities => .communities
  | .largeCommunities => .largeCommunity
  | .clusterList => .clusterList

def width : ListAttr → Nat
  | .communities => 4
  | .largeCommunities => 12
  | .clusterList => 4

def word : ListAttr → Mem → Nat → Text
  | .communities => communityText
  | .largeCommunities => largeCommunityText
  | .clusterList => ipv4Text

/-- The lengths the attribute can have. -/
def Whole (a : ListAttr) (attrLen : Nat) : Prop :=
  a.width ∣ attrLen ∧ (a = .largeCommunities → 0 < attrLen)

/-- The text that the decoder puts into the attribute map. -/
def printed {D : Decoders} (a : ListAttr) (m : Mem) (attrLen data : Nat) (st : UpdateState D) :
    Option Text :=
  (parseAttrData D m a.type attrLen data st).data.attrs a.key

/-! The words of a list. -/

variable (a : ListAttr) (m : Mem) (data : Nat)

def words (count : Nat) : List Text :=
  (List.range count).map fun i => a.word m (data + i * a.width)

/-- Communities stand between blanks, every cluster identifier in front of one. -/
def join : ListAttr → List Text → Text
  | .clusterList, ws => ws.flatMap fun w => w ++ [' ']
  | _, ws => unwords ws

theorem communityListText_eq (entry : Mem → Nat → Text) {stride : Nat} (pos : 0 < stride)
    (count : Nat) :
    communityListText entry stride m (count * stride) data =
      unwords ((List.range count).map fun i => entry m (data + i * stride)) := by
  rw [communityListText, strideLoop_pieces pos]
  cases count with
  | zero => rfl
  | succ count =>
    rw [List.range_succ_eq_map, List.map_cons, unwords_cons, List.flatMap_cons, Nat.zero_mul,
      if_pos rfl, List.nil_append, List.flatMap_map, List.map_map, List.flatMap_map]
    congr 1
    refine List.flatMap_congr fun i _ => ?_
    rw [if_neg (Nat.mul_pos (Nat.succ_pos i) pos).ne']
    rfl

theorem printed_eq {D : Decoders} (count : Nat) (whole : a.Whole (count * a.width))
    (st : UpdateState D) :
    a.printed m (count * a.width) data st = some (a.join (a.words m data count)) := by
  cases a with
  | communities =>
    refine (st.setAttr_self .communities _).trans (congrArg some ?_)
    exact communityListText_eq m data communityText (by decide) count
  | largeCommunities =>
    have some_community : 0 < count := Nat.pos_of_mul_pos_right (whole.2 rfl)
    have enough : 12 ≤ count * 12 := Nat.le_mul_of_pos_left 12 some_community
    have decoded : parseAttrData D m 32 (count * 12) data st =
        st.setAttr .largeCommunity (communityListText largeCommunityText 12 m (count * 12) data) :=
      if_pos enough
    refine (congrArg (fun st => st.data.attrs .largeCommunity) decoded).trans ?_
    refine (st.setAttr_self .largeCommunity _).trans (congrArg some ?_)
    exact communityListText_eq m data largeCommunityText (by decide) count
  | clusterList =>
    refine (st.setAttr_self .clusterList _).trans (congrArg some ?_)
    refine (strideLoop_pieces (by decide) _ count).trans ?_
    rw [join, words, List.flatMap_map]
    rfl

/-! Reading the words back. -/

/-- Only digits and separators. -/
theorem blank_not_mem_words (count : Nat) : ∀ w ∈ a.words m data count, ' ' ∉ w := by
  have digit : ∀ n, ' ' ∉ decimal n := not_mem_decimal rfl
  intro w here
  obtain ⟨i, -, rfl⟩ := List.mem_map.mp here
  cases a with
  | communities => simp [word, communityText, digit]
  | largeCommunities => simp [word, largeCommunityText, digit]
  | clusterList => simp [word, ipv4Text, inetNtop4, digit]

theorem nil_not_mem_words (count : Nat) : [] ∉ a.words m data count := by
  intro here
  obtain ⟨i, -, empty⟩ := List.mem_map.mp here
  cases a with
  | communities => simp [word, communityText] at empty
  | largeCommunities => simp [word, largeCommunityText] at empty
  | clusterList => simp [word, ipv4Text, inetNtop4] at empty

theorem words_of_join {m m' : Mem} {data data' count count' : Nat}
    (same : a.join (a.words m data count) = a.join (a.words m' data' count')) :
    a.words m data count = a.words m' data' count' := by
  have apart := a.blank_not_mem_words m data count
  have apart' := a.blank_not_mem_words m' data' count'
  have shown := a.nil_not_mem_words m data count
  have shown' := a.nil_not_mem_words m' data' count'
  cases a with
  | communities => exact unwords_injective apart shown apart' shown' same
  | largeCommunities => exact unwords_injective apart shown apart' shown' same
  | clusterList => exact blankEnded_injective apart apart' same

/-- A word determines its bytes. -/
theorem bytes_of_word {m m' : Mem} {p p' : Nat} (same : a.word m p = a.word m' p') :
    readBytes m p a.width = readBytes m' p' a.width := by
  cases a with
  | communities =>
    obtain ⟨first, -, second⟩ := decimal_split rfl rfl same
    have halves (m : Mem) (p : Nat) : readBytes m p 4 = put16 (u16 m p) ++ put16 (u16 m (p + 2)) := by
      rw [← readBytes_two, ← readBytes_two]
      exact readBytes_add m p 2 2
    rw [width, halves, halves, first, decimal_injective second]
  | largeCommunities =>
    obtain ⟨first, -, rest⟩ := decimal_split rfl rfl same
    obtain ⟨second, -, third⟩ := decimal_split rfl rfl rest
    have thirds (m : Mem) (p : Nat) : readBytes m p 12 =
        put32 (u32 m p) ++ (put32 (u32 m (p + 4)) ++ put32 (u32 m (p + 8))) := by
      rw [← readBytes_four, ← readBytes_four, ← readBytes_four, ← readBytes_add m (p + 4) 4 4]
      exact readBytes_add m p 4 8
    rw [width, thirds, thirds, first, second, decimal_injective third]
  | clusterList =>
    exact inetNtop4_injective (length_readBytes m p 4) (length_readBytes m' p' 4) same

theorem bytes_of_words {m m' : Mem} {data data' count count' : Nat}
    (same : a.words m data count = a.words m' data' count') :
    readBytes m data (count * a.width) = readBytes m' data' (count' * a.width) := by
  obtain rfl : count = count' := by simpa [words] using congrArg List.length same
  rw [readBytes_chunks, readBytes_chunks]
  refine List.flatMap_congr fun i here => a.bytes_of_word ?_
  exact List.map_inj_left.mp same i here

end ListAttr

/-- Two community or cluster attributes that are printed alike are the same bytes. -/
theorem printed_list_injective {D D' : Decoders} (a : ListAttr) (m m' : Mem)
    (attrLen attrLen' data data' : Nat) (st : UpdateState D) (st' : UpdateState D')
    (whole : a.Whole attrLen) (whole' : a.Whole attrLen')
    (same : a.printed m attrLen data st = a.printed m' attrLen' data' st') :
    readBytes m data attrLen = readBytes m' data' attrLen' := by
  obtain ⟨count, length⟩ := whole.1
  obtain ⟨count', length'⟩ := whole'.1
  rw [Nat.mul_comm] at length length'
  subst length length'
  rw [a.printed_eq m data count whole st, a.printed_eq m' data' count' whole' st',
    Option.some.injEq] at same
  exact a.bytes_of_words (a.words_of_join same)

/-- The community 65535:7, in two places. -/
theorem one_community_alike :
    ListAttr.communities.Whole 4 ∧
      ListAttr.communities.printed (memOf [255, 255, 0, 7]) 4 0
          (⟨.fresh, .empty _⟩ : UpdateState .silent) =
        ListAttr.communities.printed (memOf [9, 255, 255, 0, 7]) 4 1
          (⟨.fresh, .empty _⟩ : UpdateState .silent) ∧
      readBytes (memOf [255, 255, 0, 7]) 0 4 = readBytes (memOf [9, 255, 255, 0, 7]) 1 4 :=
  have whole : ListAttr.communities.Whole 4 := ⟨Nat.dvd_refl 4, nofun⟩
  have same : ListAttr.communities.printed (memOf [255, 255, 0, 7]) 4 0
      (⟨.fresh, .empty _⟩ : UpdateState .silent) =
    ListAttr.communities.printed (memOf [9, 255, 255, 0, 7]) 4 1
      (⟨.fresh, .empty _⟩ : UpdateState .silent) := by decide +kernel
  ⟨whole, same, printed_list_injective .communities _ _ 4 4 0 1 _ _ whole whole same⟩

end SonicBmp.Bgp.CommunityText
