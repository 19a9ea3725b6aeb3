import LocaleKeys.Text.FormRun

/-!
Characters that are put together of others, with all of their parts. A text that has the parts one
after the other says the same as one that has the character.
-/

namespace LocaleKeys.Text

/-- Composite characters from 0xc0 to 0x11938 with their parts. -/
def compositeRuns : List FormRun := [
  ⟨0xc0, [
    "À Á Â Ã Ä Å . Ç È É Ê Ë Ì Í Î Ï . Ñ Ò Ó Ô Õ Ö . . Ù Ú Û Ü",
    "Ý . . à á â ã ä å . ç è é ê ë ì í î ï . ñ ò ó ô õ ö . . ù ú",
    "û ü ý . ÿ Ā ā Ă ă Ą ą Ć ć Ĉ ĉ Ċ ċ Č č Ď ď . . Ē ē Ĕ ĕ Ė ė",
    "Ę ę Ě ě Ĝ ĝ Ğ ğ Ġ ġ Ģ ģ Ĥ ĥ . . Ĩ ĩ Ī ī Ĭ ĭ Į į İ . . . Ĵ ĵ",
    "Ķ ķ . Ĺ ĺ Ļ ļ Ľ ľ . . . . Ń ń Ņ ņ Ň ň . . . Ō ō Ŏ ŏ Ő ő . . Ŕ",
    "ŕ Ŗ ŗ Ř ř Ś ś Ŝ ŝ Ş ş Š š Ţ ţ Ť ť . . Ũ ũ Ū ū Ŭ ŭ Ů ů Ű ű",
    "Ų ų Ŵ ŵ Ŷ ŷ Ÿ Ź ź Ż ż Ž ž"]⟩,
  ⟨0x1a0, ["Ơ ơ"]⟩, ⟨0x1af, ["Ư ư"]⟩,
  ⟨0x1cd, [
    "Ǎ ǎ Ǐ ǐ Ǒ ǒ Ǔ ǔ Ǖ ǖ Ǘ ǘ Ǚ ǚ Ǜ ǜ . Ǟ ǟ Ǡ ǡ Ǣ ǣ . .",
    "Ǧ ǧ Ǩ ǩ Ǫ ǫ Ǭ ǭ Ǯ ǯ ǰ . . . Ǵ ǵ . . Ǹ ǹ Ǻ ǻ Ǽ ǽ Ǿ ǿ Ȁ ȁ",
    "Ȃ ȃ Ȅ ȅ Ȇ ȇ Ȉ ȉ Ȋ ȋ Ȍ ȍ Ȏ ȏ Ȑ ȑ Ȓ ȓ Ȕ ȕ Ȗ ȗ Ș ș Ț ț . . Ȟ",
    "ȟ"]⟩,
  ⟨0x226, ["Ȧ ȧ Ȩ ȩ Ȫ ȫ Ȭ ȭ Ȯ ȯ Ȱ ȱ Ȳ ȳ"]⟩,
  ⟨0x386, ["Ά . Έ Ή Ί . Ό . Ύ Ώ ΐ"]⟩, ⟨0x3aa, ["Ϊ Ϋ ά έ ή ί ΰ"]⟩,
  ⟨0x3ca, ["ϊ ϋ ό ύ ώ"]⟩, ⟨0x400, ["Ѐ Ё . Ѓ . . . Ї . . . . Ќ Ѝ Ў"]⟩, ⟨0x419, ["Й"]⟩,
  ⟨0x439, ["й"]⟩, ⟨0x450, ["ѐ ё . ѓ . . . ї . . . . ќ ѝ ў"]⟩, ⟨0x476, ["Ѷ ѷ"]⟩,
  ⟨0x4c1, ["Ӂ ӂ"]⟩,
  ⟨0x4d0, [
    "Ӑ ӑ Ӓ ӓ . . Ӗ ӗ . . Ӛ ӛ Ӝ ӝ Ӟ ӟ . . Ӣ ӣ Ӥ ӥ Ӧ ӧ . . Ӫ ӫ Ӭ ӭ Ӯ",
    "ӯ Ӱ ӱ Ӳ ӳ Ӵ ӵ . . Ӹ ӹ"]⟩,
  ⟨0x622, ["آ أ ؤ إ ئ"]⟩, ⟨0x6c0, ["ۀ . ۂ"]⟩, ⟨0x6d3, ["ۓ"]⟩, ⟨0x929, ["ऩ"]⟩,
  ⟨0x931, ["ऱ . . ऴ"]⟩, ⟨0x9cb, ["ো ৌ"]⟩, ⟨0xb48, ["ୈ . . ୋ ୌ"]⟩, ⟨0xb94, ["ஔ"]⟩,
  ⟨0xbca, ["ொ ோ ௌ"]⟩, ⟨0xc48, ["ై"]⟩, ⟨0xcc0, ["ೀ"]⟩, ⟨0xcc7, ["ೇ ೈ . ೊ ೋ"]⟩,
  ⟨0xd4a, ["ൊ ോ ൌ"]⟩, ⟨0xdda, ["ේ . ො ෝ ෞ"]⟩, ⟨0x1026, ["ဦ"]⟩,
  ⟨0x1b06, ["ᬆ . ᬈ . ᬊ . ᬌ . ᬎ . . . ᬒ"]⟩, ⟨0x1b3b, ["ᬻ . ᬽ . . ᭀ ᭁ . ᭃ"]⟩,
  ⟨0x1e00, [
    "Ḁ ḁ Ḃ ḃ Ḅ ḅ Ḇ ḇ Ḉ ḉ Ḋ ḋ Ḍ ḍ Ḏ ḏ Ḑ ḑ Ḓ ḓ Ḕ ḕ Ḗ ḗ Ḙ ḙ",
    "Ḛ ḛ Ḝ ḝ Ḟ ḟ Ḡ ḡ Ḣ ḣ Ḥ ḥ Ḧ ḧ Ḩ ḩ Ḫ ḫ Ḭ ḭ Ḯ ḯ Ḱ ḱ Ḳ ḳ Ḵ",
    "ḵ Ḷ ḷ Ḹ ḹ Ḻ ḻ Ḽ ḽ Ḿ ḿ Ṁ ṁ Ṃ ṃ Ṅ ṅ Ṇ ṇ Ṉ ṉ Ṋ ṋ Ṍ ṍ Ṏ",
    "ṏ Ṑ ṑ Ṓ ṓ Ṕ ṕ Ṗ ṗ Ṙ ṙ Ṛ ṛ Ṝ ṝ Ṟ ṟ Ṡ ṡ Ṣ ṣ Ṥ ṥ Ṧ",
    "ṧ Ṩ ṩ Ṫ ṫ Ṭ ṭ Ṯ ṯ Ṱ ṱ Ṳ ṳ Ṵ ṵ Ṷ ṷ Ṹ ṹ Ṻ ṻ Ṽ ṽ Ṿ ṿ Ẁ",
    "ẁ Ẃ ẃ Ẅ ẅ Ẇ ẇ Ẉ ẉ Ẋ ẋ Ẍ ẍ Ẏ ẏ Ẑ ẑ Ẓ ẓ Ẕ ẕ ẖ ẗ ẘ ẙ"]⟩,
  ⟨0x1ea0, [
    "Ạ ạ Ả ả Ấ ấ Ầ ầ Ẩ ẩ Ẫ ẫ Ậ ậ Ắ ắ Ằ ằ Ẳ ẳ Ẵ ẵ",
    "Ặ ặ Ẹ ẹ Ẻ ẻ Ẽ ẽ Ế ế Ề ề Ể ể Ễ ễ Ệ ệ Ỉ ỉ Ị ị Ọ ọ",
    "Ỏ ỏ Ố ố Ồ ồ Ổ ổ Ỗ ỗ Ộ ộ Ớ ớ Ờ ờ Ở ở Ỡ ỡ Ợ",
    "ợ Ụ ụ Ủ ủ Ứ ứ Ừ ừ Ử ử Ữ ữ Ự ự Ỳ ỳ Ỵ ỵ Ỷ ỷ Ỹ ỹ"]⟩,
  ⟨0x1f00, [
    "ἀ ἁ ἂ ἃ ἄ ἅ ἆ ἇ Ἀ Ἁ Ἂ Ἃ Ἄ Ἅ Ἆ Ἇ ἐ ἑ ἒ ἓ ἔ ἕ .",
    ". Ἐ Ἑ Ἒ Ἓ Ἔ Ἕ . . ἠ ἡ ἢ ἣ ἤ ἥ ἦ ἧ Ἠ Ἡ Ἢ Ἣ Ἤ Ἥ Ἦ",
    "Ἧ ἰ ἱ ἲ ἳ ἴ ἵ ἶ ἷ Ἰ Ἱ Ἲ Ἳ Ἴ Ἵ Ἶ Ἷ ὀ ὁ ὂ ὃ ὄ",
    "ὅ . . Ὀ Ὁ Ὂ Ὃ Ὄ Ὅ . . ὐ ὑ ὒ ὓ ὔ ὕ ὖ ὗ . Ὑ . Ὓ . Ὕ .",
    "Ὗ ὠ ὡ ὢ ὣ ὤ ὥ ὦ ὧ Ὠ Ὡ Ὢ Ὣ Ὤ Ὥ Ὦ Ὧ ὰ . ὲ . ὴ . ὶ .",
    "ὸ . ὺ . ὼ . . . ᾀ ᾁ ᾂ ᾃ ᾄ ᾅ ᾆ ᾇ ᾈ ᾉ ᾊ ᾋ ᾌ ᾍ",
    "ᾎ ᾏ ᾐ ᾑ ᾒ ᾓ ᾔ ᾕ ᾖ ᾗ ᾘ ᾙ ᾚ ᾛ ᾜ ᾝ ᾞ",
    "ᾟ ᾠ ᾡ ᾢ ᾣ ᾤ ᾥ ᾦ ᾧ ᾨ ᾩ ᾪ ᾫ ᾬ ᾭ ᾮ ᾯ ᾰ",
    "ᾱ ᾲ ᾳ ᾴ . ᾶ ᾷ Ᾰ Ᾱ Ὰ . ᾼ"]⟩,
  ⟨0x1fc2, ["ῂ ῃ ῄ . ῆ ῇ Ὲ . Ὴ . ῌ . . . ῐ ῑ ῒ . . . ῖ ῗ Ῐ Ῑ Ὶ"]⟩,
  ⟨0x1fe0, ["ῠ ῡ ῢ . ῤ ῥ ῦ ῧ Ῠ Ῡ Ὺ . Ῥ"]⟩,
  ⟨0x1ff2, ["ῲ ῳ ῴ . ῶ ῷ Ὸ . Ὼ . ῼ"]⟩,
  ⟨0x304c, ["が . ぎ . ぐ . げ . ご . ざ . じ . ず . ぜ . ぞ . だ . ぢ . . づ . で . ど"]⟩,
  ⟨0x3070, ["ば ぱ . び ぴ . ぶ ぷ . べ ぺ . ぼ ぽ"]⟩, ⟨0x3094, ["ゔ"]⟩, ⟨0x309e, ["ゞ"]⟩,
  ⟨0x30ac, ["ガ . ギ . グ . ゲ . ゴ . ザ . ジ . ズ . ゼ . ゾ . ダ . ヂ . . ヅ . デ . ド"]⟩,
  ⟨0x30d0, ["バ パ . ビ ピ . ブ プ . ベ ペ . ボ ポ"]⟩, ⟨0x30f4, ["ヴ . . ヷ ヸ ヹ ヺ . . . ヾ"]⟩,
  ⟨0x1109a, ["𑂚 . 𑂜"]⟩, ⟨0x110ab, ["𑂫"]⟩, ⟨0x1112e, ["𑄮 𑄯"]⟩, ⟨0x1134b, ["𑍋 𑍌"]⟩,
  ⟨0x114bb, ["𑒻 𑒼 . 𑒾"]⟩, ⟨0x115ba, ["𑖺 𑖻"]⟩, ⟨0x11938, ["𑤸"]⟩]

end LocaleKeys.Text
