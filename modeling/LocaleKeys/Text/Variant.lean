import LocaleKeys.Text.FormRun

/-!
Characters that are only variants of others: wide, raised, mathematical, joined and positional ones,
and doubles that older standards have left. Each has the characters that take its place.
-/

namespace LocaleKeys.Text

/-- Variants from 0xaa to 0xfb17 with what takes their place. -/
def variantRunsA : List FormRun := [
  ⟨0xaa, ["a"]⟩, ⟨0xb5, ["μ . . . . o"]⟩, ⟨0x132, ["IJ ij"]⟩, ⟨0x13f, ["L· l·"]⟩, ⟨0x149, ["ʼn"]⟩,
  ⟨0x17f, ["s"]⟩, ⟨0x1c4, ["DŽ Dž dž LJ Lj lj NJ Nj nj"]⟩, ⟨0x1f1, ["DZ Dz dz"]⟩,
  ⟨0x2b0, ["h ɦ j r ɹ ɻ ʁ w y"]⟩, ⟨0x2e0, ["ɣ l s x ʕ"]⟩, ⟨0x340, ["̀ ́ . ̓ ̈́"]⟩, ⟨0x374, ["ʹ"]⟩,
  ⟨0x387, ["·"]⟩, ⟨0x3d0, ["β θ Υ Ύ Ϋ φ π"]⟩, ⟨0x3f0, ["κ ρ ς . Θ ε . . . Σ"]⟩, ⟨0x587, ["եւ"]⟩,
  ⟨0x675, ["اٴ وٴ ۇٴ يٴ"]⟩, ⟨0x958, ["क़ ख़ ग़ ज़ ड़ ढ़ फ़ य़"]⟩, ⟨0x9dc, ["ড় ঢ় . য়"]⟩,
  ⟨0xa33, ["ਲ਼ . . ਸ਼"]⟩, ⟨0xa59, ["ਖ਼ ਗ਼ ਜ਼ . . ਫ਼"]⟩, ⟨0xb5c, ["ଡ଼ ଢ଼"]⟩, ⟨0xe33, ["ํา"]⟩,
  ⟨0xeb3, ["ໍາ"]⟩, ⟨0xedc, ["ຫນ ຫມ"]⟩, ⟨0xf43, ["གྷ"]⟩,
  ⟨0xf4d, ["ཌྷ . . . . དྷ . . . . བྷ . . . . ཛྷ"]⟩, ⟨0xf69, ["ཀྵ"]⟩,
  ⟨0xf73, ["ཱི . ཱུ ྲྀ ྲཱྀ ླྀ ླཱྀ"]⟩, ⟨0xf81, ["ཱྀ"]⟩, ⟨0xf93, ["ྒྷ"]⟩,
  ⟨0xf9d, ["ྜྷ . . . . ྡྷ . . . . ྦྷ . . . . ྫྷ"]⟩, ⟨0xfb9, ["ྐྵ"]⟩, ⟨0x10fc, ["ნ"]⟩,
  ⟨0x1d2c, [
    "A Æ B . D E Ǝ G H I J K L M N . O Ȣ P R T U W a ɐ ɑ ᴂ b d e ə ɛ ɜ g . k m ŋ o ɔ ᴖ ᴗ",
    "p t u ᴝ ɯ v ᴥ β γ δ φ χ i r u v β γ ρ φ χ"]⟩,
  ⟨0x1d78, ["н"]⟩,
  ⟨0x1d9b, ["ɒ c ɕ ð ɜ f ɟ ɡ ɥ ɨ ɩ ɪ ᵻ ʝ ɭ ᶅ ʟ ɱ ɰ ɲ ɳ ɴ ɵ ɸ ʂ ʃ ƫ ʉ ʊ ᴜ ʋ ʌ z ʐ ʑ ʒ θ"]⟩,
  ⟨0x1e9a, ["aʾ ṡ"]⟩, ⟨0x1f71, ["ά . έ . ή . ί . ό . ύ . ώ"]⟩, ⟨0x1fbb, ["Ά . . ι"]⟩,
  ⟨0x1fc9, ["Έ . Ή"]⟩, ⟨0x1fd3, ["ΐ"]⟩, ⟨0x1fdb, ["Ί"]⟩, ⟨0x1fe3, ["ΰ"]⟩, ⟨0x1feb, ["Ύ"]⟩,
  ⟨0x1ff9, ["Ό . Ώ"]⟩, ⟨0x2071, ["i"]⟩, ⟨0x207f, ["n"]⟩,
  ⟨0x2090, ["a e o x ə h k l m n p s t"]⟩,
  ⟨0x2102, ["C . . . . Ɛ . . g H H H h ħ I I L l . N . . . P Q R R R"]⟩,
  ⟨0x2124, ["Z . Ω . Z . K Å B C . e E F . M o א ב ג ד i . . π γ Γ Π"]⟩, ⟨0x2145, ["D d e i j"]⟩,
  ⟨0x2160, [
    "I II III IV V VI VII VIII IX X XI XII L C D M i ii iii iv v vi vii viii ix x xi xii",
    "l c d m"]⟩,
  ⟨0x2c7c, ["j V"]⟩, ⟨0x2d6f, ["ⵡ"]⟩, ⟨0x3038, ["十 卄 卅"]⟩, ⟨0x309f, ["より"]⟩, ⟨0x30ff, ["コト"]⟩,
  ⟨0x3131, [
    "ᄀ ᄁ ᆪ ᄂ ᆬ ᆭ ᄃ ᄄ ᄅ ᆰ ᆱ ᆲ ᆳ ᆴ ᆵ ᄚ ᄆ ᄇ ᄈ ᄡ ᄉ ᄊ ᄋ ᄌ ᄍ ᄎ ᄏ ᄐ ᄑ ᄒ ᅡ ᅢ ᅣ ᅤ ᅥ ᅦ ᅧ ᅨ ᅩ ᅪ ᅫ ᅬ",
    "ᅭ ᅮ ᅯ ᅰ ᅱ ᅲ ᅳ ᅴ ᅵ ᅠ ᄔ ᄕ ᇇ ᇈ ᇌ ᇎ ᇓ ᇗ ᇙ ᄜ ᇝ ᇟ ᄝ ᄞ ᄠ ᄢ ᄣ ᄧ ᄩ ᄫ ᄬ ᄭ ᄮ ᄯ ᄲ ᄶ ᅀ ᅇ ᅌ ᇱ ᇲ ᅗ",
    "ᅘ ᅙ ᆄ ᆅ ᆈ ᆑ ᆒ ᆔ ᆞ ᆡ"]⟩,
  ⟨0xa69c, ["ъ ь"]⟩, ⟨0xa770, ["ꝯ"]⟩, ⟨0xa7f2, ["C F Q . . . Ħ œ"]⟩, ⟨0xab5c, ["ꜧ ꬷ ɫ ꭒ"]⟩,
  ⟨0xab69, ["ʍ"]⟩,
  ⟨0xf900, [
    "豈 更 車 賈 滑 串 句 龜 龜 契 金 喇 奈 懶 癩 羅 蘿 螺 裸 邏 樂 洛 烙 珞 落 酪 駱 亂 卵 欄 爛 蘭 鸞 嵐 濫 藍 襤 拉 臘 蠟 廊 朗",
    "浪 狼 郎 來 冷 勞 擄 櫓 爐 盧 老 蘆 虜 路 露 魯 鷺 碌 祿 綠 菉 錄 鹿 論 壟 弄 籠 聾 牢 磊 賂 雷 壘 屢 樓 淚 漏 累 縷 陋 勒 肋",
    "凜 凌 稜 綾 菱 陵 讀 拏 樂 諾 丹 寧 怒 率 異 北 磻 便 復 不 泌 數 索 參 塞 省 葉 說 殺 辰 沈 拾 若 掠 略 亮 兩 凉 梁 糧 良 諒",
    "量 勵 呂 女 廬 旅 濾 礪 閭 驪 麗 黎 力 曆 歷 轢 年 憐 戀 撚 漣 煉 璉 秊 練 聯 輦 蓮 連 鍊 列 劣 咽 烈 裂 說 廉 念 捻 殮 簾 獵",
    "令 囹 寧 嶺 怜 玲 瑩 羚 聆 鈴 零 靈 領 例 禮 醴 隸 惡 了 僚 寮 尿 料 樂 燎 療 蓼 遼 龍 暈 阮 劉 杻 柳 流 溜 琉 留 硫 紐 類 六",
    "戮 陸 倫 崙 淪 輪 律 慄 栗 率 隆 利 吏 履 易 李 梨 泥 理 痢 罹 裏 裡 里 離 匿 溺 吝 燐 璘 藺 隣 鱗 麟 林 淋 臨 立 笠 粒 狀 炙",
    "識 什 茶 刺 切 度 拓 糖 宅 洞 暴 輻 行 降 見 廓 兀 嗀 . . 塚 . 晴 . . 凞 猪 益 礼 神 祥 福 靖 精 羽 . 蘒 . 諸 . . 逸",
    "都 . . . 飯 飼 館 鶴 郞 隷 侮 僧 免 勉 勤 卑 喝 嘆 器 塀 墨 層 屮 悔 慨 憎 懲 敏 既 暑 梅 海 渚 漢 煮 爫 琢 碑 社 祉 祈 祐",
    "祖 祝 禍 禎 穀 突 節 練 縉 繁 署 者 臭 艹 艹 著 褐 視 謁 謹 賓 贈 辶 逸 難 響 頻 恵 𤋮 舘 . . 並 况 全 侀 充 冀 勇 勺 喝 啕",
    "喙 嗢 塚 墳 奄 奔 婢 嬨 廒 廙 彩 徭 惘 慎 愈 憎 慠 懲 戴 揄 搜 摒 敖 晴 朗 望 杖 歹 殺 流 滛 滋 漢 瀞 煮 瞧 爵 犯 猪 瑱 甆 画",
    "瘝 瘟 益 盛 直 睊 着 磌 窱 節 类 絛 練 缾 者 荒 華 蝹 襁 覆 視 調 諸 請 謁 諾 諭 謹 變 贈 輸 遲 醙 鉶 陼 難 靖 韛 響 頋 頻 鬒",
    "龜 𢡊 𢡄 𣏕 㮝 䀘 䀹 𥉉 𥳐 𧻓 齃 龎"]⟩,
  ⟨0xfb00, ["ff fi fl ffi ffl st st"]⟩, ⟨0xfb13, ["մն մե մի վն մխ"]⟩]

/-- Variants from 0xfb1d to 0xfefc with what takes their place. -/
def variantRunsB : List FormRun := [
  ⟨0xfb1d, [
    "יִ . ײַ ע א ד ה כ ל ם ר ת . שׁ שׂ שּׁ שּׂ אַ אָ אּ בּ גּ דּ הּ וּ זּ . טּ יּ ךּ כּ",
    "לּ . מּ . נּ סּ . ףּ פּ . צּ קּ רּ שּ תּ וֹ בֿ כֿ פֿ אל ٱ ٱ ٻ ٻ ٻ ٻ پ پ پ پ ڀ ڀ ڀ ڀ",
    "ٺ ٺ ٺ ٺ ٿ ٿ ٿ ٿ ٹ ٹ ٹ ٹ ڤ ڤ ڤ ڤ ڦ ڦ ڦ ڦ ڄ ڄ ڄ ڄ ڃ ڃ ڃ ڃ چ چ چ چ ڇ ڇ ڇ ڇ ڍ ڍ ڌ ڌ ڎ ڎ",
    "ڈ ڈ ژ ژ ڑ ڑ ک ک ک ک گ گ گ گ ڳ ڳ ڳ ڳ ڱ ڱ ڱ ڱ ں ں ڻ ڻ ڻ ڻ ۀ ۀ ہ ہ ہ ہ ھ ھ ھ ھ ے ے ۓ",
    "ۓ"]⟩,
  ⟨0xfbd3, [
    "ڭ ڭ ڭ ڭ ۇ ۇ ۆ ۆ ۈ ۈ ۇٴ ۋ ۋ ۅ ۅ ۉ ۉ ې ې ې ې ى ى ئا ئا ئە ئە ئو ئو ئۇ ئۇ ئۆ",
    "ئۆ ئۈ ئۈ ئې ئې ئې ئى ئى ئى ی ی ی ی ئج ئح ئم ئى ئي بج بح بخ بم بى بي تج",
    "تح تخ تم تى تي ثج ثم ثى ثي جح جم حج حم خج خح خم سج سح سخ سم صح صم ضج ضح ضخ ضم طح طم",
    "ظم عج عم غج غم فج فح فخ فم فى في قح قم قى قي كا كج كح كخ كل كم كى كي لج لح لخ لم لى",
    "لي مج مح مخ مم مى مي نج نح نخ نم نى ني هج هم هى هي يج يح يخ يم يى يي ذٰ رٰ ىٰ"]⟩,
  ⟨0xfc64, [
    "ئر ئز ئم ئن ئى ئي بر بز بم بن بى بي تر تز تم تن تى تي ثر ثز ثم ثن ثى ثي فى في",
    "قى قي كا كل كم كى كي لم لى لي ما مم نر نز نم نن نى ني ىٰ ير يز يم ين يى يي ئج ئح",
    "ئخ ئم ئه بج بح بخ بم به تج تح تخ تم ته ثم جح جم حج حم خج خم سج سح سخ سم صح صخ صم",
    "ضج ضح ضخ ضم طح ظم عج عم غج غم فج فح فخ فم قح قم كج كح كخ كل كم لج لح لخ لم له مج مح",
    "مخ مم نج نح نخ نم نه هج هم هٰ يج يح يخ يم يه ئم ئه بم به تم ته ثم ثه سم سه شم شه",
    "كل كم لم نم نه يم يه ـَّ ـُّ ـِّ طى طي عى عي غى غي سى سي شى شي حى حي جى جي خى خي صى",
    "صي ضى ضي شج شح شخ شم شر سر صر ضر طى طي عى عي غى غي سى سي شى شي حى حي جى جي خى خي صى",
    "صي ضى ضي شج شح شخ شم شر سر صر ضر شج شح شخ شم سه شه طم سج سح سخ شج شح شخ طم ظم اً اً"]⟩,
  ⟨0xfd50, [
    "تجم تحج تحج تحم تخم تمج تمح تمخ جمح جمح حمي حمى سحج سجح سجى سمح سمح سمج سمم سمم صحح",
    "صحح صمم شحم شحم شجي شمخ شمخ شمم شمم ضحى ضخم ضخم طمح طمح طمم طمي عجم عمم عمم عمى غمم",
    "غمي غمى فخم فخم قمح قمم لحم لحي لحى لجج لجج لخم لخم لمح لمح محج محم محي مجح مجم مخج",
    "مخم . . مجخ همج همم نحم نحى نجم نجم نجى نمي نمى يمم يمم بخي تجي تجى تخي تخى تمي تمى",
    "جمي جحى جمى سخى صحي شحي ضحي لجي لمي يحي يجي يمي ممي قمي نحي قمح لحم عمي كمي نجح مخي",
    "لجم كمم لجم نجح جحي حجي مجي فمي بحي كمم عجم صمم سخي نجي"]⟩,
  ⟨0xfdf0, ["صلے قلے الله اكبر محمد صلعم رسول عليه وسلم صلى"]⟩, ⟨0xfe33, ["_ _"]⟩,
  ⟨0xfe4d, ["_ _ _"]⟩, ⟨0xfe71, ["ـً"]⟩,
  ⟨0xfe77, [
    "ـَ . ـُ . ـِ . ـّ . ـْ ء آ آ أ أ ؤ ؤ إ إ ئ ئ ئ ئ ا ا ب ب ب ب ة ة ت ت ت ت",
    "ث ث ث ث ج ج ج ج ح ح ح ح خ خ خ خ د د ذ ذ ر ر ز ز س س س س ش ش ش ش ص ص ص ص ض ض ض ض ط ط",
    "ط ط ظ ظ ظ ظ ع ع ع ع غ غ غ غ ف ف ف ف ق ق ق ق ك ك ك ك ل ل ل ل م م م م ن ن ن ن ه ه ه ه",
    "و و ى ى ي ي ي ي لآ لآ لأ لأ لإ لإ لا لا"]⟩]

/-- Variants from 0xff10 to 0x1d7ff with what takes their place. -/
def variantRunsC : List FormRun := [
  ⟨0xff10, ["0 1 2 3 4 5 6 7 8 9"]⟩,
  ⟨0xff21, [
    "A B C D E F G H I J K L M N O P Q R S T U V W X Y Z . . . . _ . a b c d e f g h i j",
    "k l m n o p q r s t u v w x y z"]⟩,
  ⟨0xff66, [
    "ヲ ァ ィ ゥ ェ ォ ャ ュ ョ ッ ー ア イ ウ エ オ カ キ ク ケ コ サ シ ス セ ソ タ チ ツ テ ト ナ ニ ヌ ネ ノ ハ ヒ フ ヘ ホ マ",
    "ミ ム メ モ ヤ ユ ヨ ラ リ ル レ ロ ワ ン ゙ ゚ ᅠ ᄀ ᄁ ᆪ ᄂ ᆬ ᆭ ᄃ ᄄ ᄅ ᆰ ᆱ ᆲ ᆳ ᆴ ᆵ ᄚ ᄆ ᄇ ᄈ ᄡ ᄉ ᄊ ᄋ ᄌ ᄍ",
    "ᄎ ᄏ ᄐ ᄑ ᄒ . . . ᅡ ᅢ ᅣ ᅤ ᅥ ᅦ . . ᅧ ᅨ ᅩ ᅪ ᅫ ᅬ . . ᅭ ᅮ ᅯ ᅰ ᅱ ᅲ . . ᅳ ᅴ ᅵ"]⟩,
  ⟨0x10781, [
    "ː ˑ æ ʙ ɓ . ʣ ꭦ ʥ ʤ ɖ ɗ ᶑ ɘ ɞ ʩ ɤ ɢ ɠ ʛ ħ ʜ ɧ ʄ ʪ ʫ ɬ 𝼄 ꞎ ɮ 𝼅 ʎ 𝼆 ø ɶ ɷ q ɺ 𝼈 ɽ ɾ ʀ",
    "ʨ ʦ ꭧ ʧ ʈ ⱱ . ʏ ʡ ʢ ʘ ǀ ǁ ǂ 𝼊 𝼞"]⟩,
  ⟨0x1d400, [
    "A B C D E F G H I J K L M N O P Q R S T U V W X Y Z a b c d e f g h i j k l m n o p",
    "q r s t u v w x y z A B C D E F G H I J K L M N O P Q R S T U V W X Y Z a b c d e f",
    "g . i j k l m n o p q r s t u v w x y z A B C D E F G H I J K L M N O P Q R S T U V",
    "W X Y Z a b c d e f g h i j k l m n o p q r s t u v w x y z A . C D . . G . . J K .",
    ". N O P Q . S T U V W X Y Z a b c d . f . h i j k l m n . p q r s t u v w x y z A B",
    "C D E F G H I J K L M N O P Q R S T U V W X Y Z a b c d e f g h i j k l m n o p q r",
    "s t u v w x y z A B . D E F G . . J K L M N O P Q . S T U V W X Y . a b c d e f g h",
    "i j k l m n o p q r s t u v w x y z A B . D E F G . I J K L M . O . . . S T U V W X",
    "Y . a b c d e f g h i j k l m n o p q r s t u v w x y z A B C D E F G H I J K L M N",
    "O P Q R S T U V W X Y Z a b c d e f g h i j k l m n o p q r s t u v w x y z A B C D",
    "E F G H I J K L M N O P Q R S T U V W X Y Z a b c d e f g h i j k l m n o p q r s t",
    "u v w x y z A B C D E F G H I J K L M N O P Q R S T U V W X Y Z a b c d e f g h i j",
    "k l m n o p q r s t u v w x y z A B C D E F G H I J K L M N O P Q R S T U V W X Y Z",
    "a b c d e f g h i j k l m n o p q r s t u v w x y z A B C D E F G H I J K L M N O P",
    "Q R S T U V W X Y Z a b c d e f g h i j k l m n o p q r s t u v w x y z A B C D E F",
    "G H I J K L M N O P Q R S T U V W X Y Z a b c d e f g h i j k l m n o p q r s t u v",
    "w x y z ı ȷ . . Α Β Γ Δ Ε Ζ Η Θ Ι Κ Λ Μ Ν Ξ Ο Π Ρ Θ Σ Τ Υ Φ Χ Ψ Ω . α β γ δ ε ζ η θ",
    "ι κ λ μ ν ξ ο π ρ ς σ τ υ φ χ ψ ω . ε θ κ φ ρ π Α Β Γ Δ Ε Ζ Η Θ Ι Κ Λ Μ Ν Ξ Ο Π Ρ Θ",
    "Σ Τ Υ Φ Χ Ψ Ω . α β γ δ ε ζ η θ ι κ λ μ ν ξ ο π ρ ς σ τ υ φ χ ψ ω . ε θ κ φ ρ π Α Β",
    "Γ Δ Ε Ζ Η Θ Ι Κ Λ Μ Ν Ξ Ο Π Ρ Θ Σ Τ Υ Φ Χ Ψ Ω . α β γ δ ε ζ η θ ι κ λ μ ν ξ ο π ρ ς",
    "σ τ υ φ χ ψ ω . ε θ κ φ ρ π Α Β Γ Δ Ε Ζ Η Θ Ι Κ Λ Μ Ν Ξ Ο Π Ρ Θ Σ Τ Υ Φ Χ Ψ Ω . α β",
    "γ δ ε ζ η θ ι κ λ μ ν ξ ο π ρ ς σ τ υ φ χ ψ ω . ε θ κ φ ρ π Α Β Γ Δ Ε Ζ Η Θ Ι Κ Λ Μ",
    "Ν Ξ Ο Π Ρ Θ Σ Τ Υ Φ Χ Ψ Ω . α β γ δ ε ζ η θ ι κ λ μ ν ξ ο π ρ ς σ τ υ φ χ ψ ω . ε θ",
    "κ φ ρ π Ϝ ϝ . . 0 1 2 3 4 5 6 7 8 9 0 1 2 3 4 5 6 7 8 9 0 1 2 3 4 5 6 7 8 9 0 1 2 3",
    "4 5 6 7 8 9 0 1 2 3 4 5 6 7 8 9"]⟩]

/-- Variants from 0x1ee00 to 0x2fa1d with what takes their place. -/
def variantRunsD : List FormRun := [
  ⟨0x1ee00, [
    "ا ب ج د . و ز ح ط ي ك ل م ن س ع ف ص ق ر ش ت ث خ ذ ض ظ غ ٮ ں ڡ ٯ . ب ج . ه . . ح . ي",
    "ك ل م ن س ع ف ص ق . ش ت ث خ . ض . غ"]⟩,
  ⟨0x1ee42, [
    "ج . . . . ح . ي . ل . ن س ع . ص ق . ش . . خ . ض . غ . ں . ٯ . ب ج . ه . . ح ط ي ك .",
    "م ن س ع ف ص ق . ش ت ث خ . ض ظ غ ٮ . ڡ . ا ب ج د ه و ز ح ط ي . ل م ن س ع ف ص ق ر ش ت",
    "ث خ ذ ض ظ غ"]⟩,
  ⟨0x1eea1, ["ب ج د . و ز ح ط ي . ل م ن س ع ف ص ق ر ش ت ث خ ذ ض ظ غ"]⟩,
  ⟨0x1fbf0, ["0 1 2 3 4 5 6 7 8 9"]⟩,
  ⟨0x2f800, [
    "丽 丸 乁 𠄢 你 侮 侻 倂 偺 備 僧 像 㒞 𠘺 免 兔 兤 具 𠔜 㒹 內 再 𠕋 冗 冤 仌 冬 况 𩇟 凵 刃 㓟 刻 剆 割 剷 㔕 勇 勉 勤 勺 包",
    "匆 北 卉 卑 博 即 卽 卿 卿 卿 𠨬 灰 及 叟 𠭣 叫 叱 吆 咞 吸 呈 周 咢 哶 唐 啓 啣 善 善 喙 喫 喳 嗂 圖 嘆 圗 噑 噴 切 壮 城 埴",
    "堍 型 堲 報 墬 𡓤 売 壷 夆 多 夢 奢 𡚨 𡛪 姬 娛 娧 姘 婦 㛮 㛼 嬈 嬾 嬾 𡧈 寃 寘 寧 寳 𡬘 寿 将 当 尢 㞁 屠 屮 峀 岍 𡷤 嵃 𡷦",
    "嵮 嵫 嵼 巡 巢 㠯 巽 帨 帽 幩 㡢 𢆃 㡼 庰 庳 庶 廊 𪎒 廾 𢌱 𢌱 舁 弢 弢 㣇 𣊸 𦇚 形 彫 㣣 徚 忍 志 忹 悁 㤺 㤜 悔 𢛔 惇 慈 慌",
    "慎 慌 慺 憎 憲 憤 憯 懞 懲 懶 成 戛 扝 抱 拔 捐 𢬌 挽 拼 捨 掃 揤 𢯱 搢 揅 掩 㨮 摩 摾 撝 摷 㩬 敏 敬 𣀊 旣 書 晉 㬙 暑 㬈 㫤",
    "冒 冕 最 暜 肭 䏙 朗 望 朡 杞 杓 𣏃 㭉 柺 枅 桒 梅 𣑭 梎 栟 椔 㮝 楂 榣 槪 檨 𣚣 櫛 㰘 次 𣢧 歔 㱎 歲 殟 殺 殻 𣪍 𡴋 𣫺 汎 𣲼",
    "沿 泍 汧 洖 派 海 流 浩 浸 涅 𣴞 洴 港 湮 㴳 滋 滇 𣻑 淹 潮 𣽞 𣾎 濆 瀹 瀞 瀛 㶖 灊 災 灷 炭 𠔥 煅 𤉣 熜 𤎫 爨 爵 牐 𤘈 犀 犕",
    "𤜵 𤠔 獺 王 㺬 玥 㺸 㺸 瑇 瑜 瑱 璅 瓊 㼛 甤 𤰶 甾 𤲒 異 𢆟 瘐 𤾡 𤾸 𥁄 㿼 䀈 直 𥃳 𥃲 𥄙 𥄳 眞 真 真 睊 䀹 瞋 䁆 䂖 𥐝 硎 碌",
    "磌 䃣 𥘦 祖 𥚚 𥛅 福 秫 䄯 穀 穊 穏 𥥼 𥪧 𥪧 竮 䈂 𥮫 篆 築 䈧 𥲀 糒 䊠 糨 糣 紀 𥾆 絣 䌁 緇 縂 繅 䌴 𦈨 𦉇 䍙 𦋙 罺 𦌾 羕 翺",
    "者 𦓚 𦔣 聠 𦖨 聰 𣍟 䏕 育 脃 䐋 脾 媵 𦞧 𦞵 𣎓 𣎜 舁 舄 辞 䑫 芑 芋 芝 劳 花 芳 芽 苦 𦬼 若 茝 荣 莭 茣 莽 菧 著 荓 菊 菌 菜",
    "𦰶 𦵫 𦳕 䔫 蓱 蓳 蔖 𧏊 蕤 𦼬 䕝 䕡 𦾱 𧃒 䕫 虐 虜 虧 虩 蚩 蚈 蜎 蛢 蝹 蜨 蝫 螆 䗗 蟡 蠁 䗹 衠 衣 𧙧 裗 裞 䘵 裺 㒻 𧢮 𧥦 䚾",
    "䛇 誠 諭 變 豕 𧲨 貫 賁 贛 起 𧼯 𠠄 跋 趼 跰 𠣞 軔 輸 𨗒 𨗭 邔 郱 鄑 𨜮 鄛 鈸 鋗 鋘 鉼 鏹 鐕 𨯺 開 䦕 閷 𨵷 䧦 雃 嶲 霣 𩅅 𩈚",
    "䩮 䩶 韠 𩐊 䪲 𩒖 頋 頋 頩 𩖶 飢 䬳 餩 馧 駂 駾 䯎 𩬰 鬒 鱀 鳽 䳎 䳭 鵧 𪃎 䳸 𪄅 𪈎 𪊑 麻 䵖 黹 黾 鼅 鼏 鼖 鼻 𪘀"]⟩]

def variantRuns : List FormRun :=
  variantRunsA ++ variantRunsB ++ variantRunsC ++ variantRunsD

end LocaleKeys.Text
