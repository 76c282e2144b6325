import Amend.Unicode.Table

/-!
# General categories

The general category of a character, as assigned by Unicode 16.0, and the groups of categories
(`L` for the letters, `N` for the numbers, …) that patterns name.
-/

set_option autoImplicit false

namespace Amend.Unicode

/-- The general categories under their two-letter names. -/
inductive Category
  | lu | ll | lt | lm | lo | mn | mc | me | nd | nl | no | pc | pd | ps | pe | pi | pf | po
  | sm | sc | sk | so | zs | zl | zp | cc | cf | cs | co | cn
  deriving DecidableEq, Repr

namespace Category

/-- The categories in the order in which the table numbers them. -/
def all : Array Category :=
  #[.lu, .ll, .lt, .lm, .lo, .mn, .mc, .me, .nd, .nl, .no, .pc, .pd, .ps, .pe, .pi, .pf, .po,
    .sm, .sc, .sk, .so, .zs, .zl, .zp, .cc, .cf, .cs, .co]

/-- The characters of every assigned category. -/
def table : Table := .ofRuns
  (String.join [
    "A-ZAAWACRAATACRAANAAOAARAASAARAAMABRAJIABRACSABRAZAAANAARAAOAAUAALAAUAZBAANAASAAOAASAbAZAAWAARAD",
    "TAAVAARAAUAAVAAEAAPAASAA6AAVAAUAAVAASABKAAUAABABRAAUAAKAAEAAQACKAARAWAAASAGAAXBAASAHBAAAAABAAAAA",
    "BAAAAABAAAAABAAAAABAAAAABAAAAABAAAAABAAAAABAAAAABAAAAABAAAAABAAAAABAAAAABAAAAABAAAAABAAAAABAAAAA",
    "BAAAAABAAAAABAAAAABAAAAABAAAAABAAAAABAAAAABAAAAABAAAAABAAAABBAAAAABAAAAABAAAAABAAAAABAAAAABAAAAA",
    "BAAAAABAAAABBAAAAABAAAAABAAAAABAAAAABAAAAABAAAAABAAAAABAAAAABAAAAABAAAAABAAAAABAAAAABAAAAABAAAAA",
    "BAAAAABAAAAABAAAAABAAAAABAAAAABAAAAABAAAAABAAAAABAAAAABABAAABAAAAABAAAACBABAAABAAAAABABAAABACAAB",
    "BADAAABABAAABACAACBABAAABABAAABAAAAABAAAAABABAAABAAAABBAAAAABABAAABACAAABAAAAABABAABBAAEAAAACBAD",
    "EAAAAACAABAAAAACAABAAAAACAABAAAAABAAAAABAAAAABAAAAABAAAAABAAAAABAAAAABAAAABBAAAAABAAAAABAAAAABAA",
    "AAABAAAAABAAAAABAAAAABAAAAABAAAABBAAAAACAABAAAAABACAAABAAAAABAAAAABAAAAABAAAAABAAAAABAAAAABAAAAA",
    "BAAAAABAAAAABAAAAABAAAAABAAAAABAAAAABAAAAABAAAAABAAAAABAAAAABAAAAABAAAAABAAAAABAAAAABAAAAABAAAAA",
    "BAAAAABAAAAABAAAAABAAAAABAAAAABAAAAGBABAAABABAABBAAAAABADAAABAAAAABAAAAABAAAAABAAAAcEBABEAZBARDA",
    "DUALDANUAEDAGUAADAAUAADAQUAdPFAAAAABAAAAABAADAAUAAAAABCADACBAARAAAEBUAAAAARACABAABBAAABAQABIAAbC",
    "BAAAABBACAACBAAAAABAAAAABAAAAABAAAAABAAAAABAAAAABAAAAABAAAAABAAAAABAAAAABAAAAABAAAAEBAAAAABAASAA",
    "AAABABAABBAbSAAbPBAAAAABAAAAABAAAAABAAAAABAAAAABAAAAABAAAAABAAAAABAAAAABAAAAABAAAAABAAAAABAAAAAB",
    "AAAAABAAAAABAAAAABAAAAABAAVAEFABHAAAAABAAAAABAAAAABAAAAABAAAAABAAAAABAAAAABAAAAABAAAAABAAAAABAAA",
    "AABAAAAABAAAAABAAAAABAAAAABAAAAABAAAAABAAAAABAAAAABAAAAABAAAAABAAAAABAAAAABAAAAABAAAAABAAAAABAAA",
    "AABABAAABAAAAABAAAAABAAAAABAAAAABAAAAABAAAABBAAAAABAAAAABAAAAABAAAAABAAAAABAAAAABAAAAABAAAAABAAA",
    "AABAAAAABAAAAABAAAAABAAAAABAAAAABAAAAABAAAAABAAAAABAAAAABAAAAABAAAAABAAAAABAAAAABAAAAABAAAAABAAA",
    "AABAAAAABAAAAABAAAAABAAAAABAAAAABAAAAABAAAAABAAAAABAAAAABAAAAABAAAAABAAAAABAAAAABAAAAABAAAAABAAA",
    "AABAAAAABAAAAABAAAAABAAAAABAAAAABAAAAABAAAAABBbFACADAFRAbIBAARAAMCBVAATBbMFAAMAAFAARABFAARABFAAR",
    "AAFI6EEDEABRLF6ACSABRAATABRABVAKFAARAA6ACRA-EAADAJEAUFAJIADRABEAAFAdCEAARAAEAGFAA6AAVAFFABDABFAA",
    "VADFABEAJIACEABVAAEANRBA6AAEAAFA9EA6FCcYEAKFAAEOJIAbAEAIFABDAAVACRAADCAFABTAVEADFAADAIFAADACFAAD",
    "AEFCORBYEACFCARBKEFXEAAUAFEBB6FIFAbIEAADAXFAA6A-FAAGAbVEAAFAAGAAFAAEACGAHFADGAAFABGAAEAGFAJEABFA",
    "BRAJIAARAADAOEAAFABGBHECBECVEBGEBAEDDECAFAAEACGADFCBGCBGAAFAAEIAGEBEBCEABFCJIABEABTAFKAAVAATAAEA",
    "ARAAFCBFAAGBFEEBECVEBGEBBEBBEBBECAFBCGABFEBFCCFDAFHDEBAEHJIABFACEAAFAARKBFAAGBIEBCEBVEBGEBBEBEEC",
    "AFAAEACGAEFBBFAAGBBGAAFCAEPBEABFCJIAARAATHAEAFFBAFABGBHECBECVEBGEBBEBEECAFAAEAAGAAFAAGADFCBGCBGA",
    "AFHBFAAGEBEBCEABFCJIAAVAAEAFKKAFAAEBFEDCEBDEDBEBAEBBEDBEDCEDLEEBGAAFABGDCGBCGAAFCAEGAGOJIACKAFVA",
    "ATAAVFAFACGAAFAHEBCEBWEBPECAFAAEACFADGBCFBDFHBFBCECAECBEABFCJIHARAGKAAVAAEAAFABGAARAHEBCEBWEBJEB",
    "EECAFAAEAAGAAFAEGBAFABGBBGABFHBGGBEBBEABFCJIBBEAAGMBFABGAIEBCEBbIEABFAAEACGADFBCGBCGAAFAAEAAVECE",
    "AAGAGKACEABFCJIAIKAAVAFEBAFABGBREDXEBIEBAECGEDAFECGACFBAFBHGGJICBGAARMbPEAAFABEAGFEATAFEAADAHFAA",
    "RAJIABRbFBEBAEBEEBXEBAEBJEAAFABEAIFAAECEEBADBGFBJICDEbAAEACVAORAAVAARACVABFAFVAJIAJKAAVAAFAAVAAF",
    "AAVAAFAANAAOAANAAOABGAHEBbDEENFAAGAEFAARABFAEEAKFBbDFBHVAAFAFVBBVAERADVABRbFbKEABGADFAAGAFFAAGAB",
    "FABGABFAAEAJIAFRAFEABGABFADEACFAAEACGABEAGGACEADFAMEAAFABGABFAFGAAFAAEAAGAJIACGAAFABVAbFABAAFAAC",
    "bKBAARAADACBAkIEBDECGEBAEBDECbIEBDECbAEBDECGEBAEBDECOEBbYEBDECcCECCFAIRATKDPEAJVGcVACFBCAMAtLEAA",
    "VAARAQEAAWAZEAANAAODcKEACRACJAHEHREACFAAGJSEABFAAGABRJREABFMMEBCEBBFMbTEABFAAGAGFAHGAAFABGAKFACR",
    "AADACRAATAAEAAFCJIGJKGFRAAMADRACFAA6AAFAJIGbCEAADAbUEHEEABFAbBEAAFAAEFcFEK+EBCFADGABFACGEBGAAFAF",
    "GACFEAVDBRAJIA9ECEELbLEEZEGJIAAKDbBVAWEABFABGAAFCBRAbUEAAGAAFAAGAGFBAFAAGAAFABGAHFAFGAJFCAFAJIGJ",
    "IGGRAADAFRCNFAAHAPFbRDFAAGAbOEAAFAAGAEFAAGAAFAEGAAFABGAHEBBRAJIAGRAJVAIFAIVACRABFAAGA9EAAGADFABG",
    "ABFAAGACFABEAJIAbLEAAFAAGABFACGAAFAAGACFABGIDRAbDEAHGAHFABGABFDERAJIDCEAJIA9EAFDABRAIBAAAAABFbKA",
    "CCAAHRICFAARAMFAAGAGFADEAAFAFEAAFABEAAGABFAAEFbLBAb+DAMBAADAbBBAbEDAb-FAAAAABAAAAABAAAAABAAAAABA",
    "AAAABAAAAABAAAAABAAAAABAAAAABAAAAABAAAAABAAAAABAAAAABAAAAABAAAAABAAAAABAAAAABAAAAABAAAAABAAAAABA",
    "AAAABAAAAABAAAAABAAAAABAAAAABAAAAABAAAAABAAAAABAAAAABAAAAABAAAAABAAAAABAAAAABAAAAABAAAAABAAAAABA",
    "AAAABAAAAABAAAAABAAAAABAAAAABAAAAABAAAAABAAAAABAAAAABAAAAABAAAAABAAAAABAAAAABAAAAABAAAAABAAAAABA",
    "AAAABAAAAABAAAAABAAAAABAAAAABAAAAABAAAAABAAAAABAAAAABAAAAABAAAAABAAAAABAAAAABAAAAABAAAAABAAAAABA",
    "AAAABAAAAABAAAAABAAAAABAAAAABAAAAABAAAAIBAAAAABAAAAABAAAAABAAAAABAAAAABAAAAABAAAAABAAAAABAAAAABA",
    "AAAABAAAAABAAAAABAAAAABAAAAABAAAAABAAAAABAAAAABAAAAABAAAAABAAAAABAAAAABAAAAABAAAAABAAAAABAAAAABA",
    "AAAABAAAAABAAAAABAAAAABAAAAABAAAAABAAAAABAAAAABAAAAABAAAAABAAAAABAAAAABAAAAABAAAAABAAAAABAAAAABA",
    "AAAABAAAAABAAAAABAAAAABAAAAABAAAAABAAAAABAAAAIBAHAAFBCFACHBAHAAHBAHAAFBCFACHBBAABAABAABAAAHBAHAA",
    "NBCHBAHCAHBAHCAHBAHCAEBBBBADAAACAAUAABACUACBBBBADAAACACUADBCBBADABCUAHBAEAACUCCBBBBADAAACABUBKWA",
    "E6AFMABRAAPAAQAANABPAAQAANAAPAHRAAXAAYAE6AAWAIRAAPAAQADRABLACRAASAANAAOAKRAASAARAALAJRAAWAE6BJ6A",
    "AKAADCFKACSAANAAOAADAJKACSAANAAOBMDDbATPMFADHAAFACHALFPBVAAAADVAAAABVAABACAABBACAAABAAVAAAABVAAS",
    "AEAAFVAAAAAVAAAAAVAAAAAVADAAAVAABADAAABADEAABABVABBABAAESAAAADBAAVAASABVAABAAVAPKAbCJAAAAABADJAA",
    "KABVEESAEVABSADVAASABVAASABVAASAGVAASA+VABSABVAASAAVAASA+VAiLSAHVAANAAOAANAAOATVABSAGVAANAAOAcQV",
    "AASA9VAYSAbHVAFSAcHVWKVVb7KAcNVAVKAfWVAASAIVAASAbVVAHSAdOVAASAhXVAANAAOAANAAOAANAAOAANAAOAANAAOA",
    "ANAAOAANAAOA9KAbLVAESAANAAOA+SAANAAOAANAAOAANAAOAANAAOAANAAOAPSAh-VAeCSAANAAOAANAAOAANAAOAANAAOA",
    "ANAAOAANAAOAANAAOAANAAOAANAAOAANAAOAANAAOAb+SAANAAOAANAAOA-SAANAAOAiBSAbPVAUSABVAFSAbGVC-VBdIVAb",
    "PAAbPBAAAAABACAABBAAAAABAAAAABAAAAABADAAABAAAABBAAAAFBABDACAAABAAAAABAAAAABAAAAABAAAAABAAAAABAAA",
    "AABAAAAABAAAAABAAAAABAAAAABAAAAABAAAAABAAAAABAAAAABAAAAABAAAAABAAAAABAAAAABAAAAABAAAAABAAAAABAAA",
    "AABAAAAABAAAAABAAAAABAAAAABAAAAABAAAAABAAAAABAAAAABAAAAABAAAAABAAAAABAAAAABAAAAABAAAAABAAAAABAAA",
    "AABAAAAABAAAAABAAAAABAAAAABAAAAABAAAAABAAAAABAAAAABAAAAABAAAAABAAAABBAFVAAAAABAAAAABACFAAAAABFDR",
    "AAKABRAbFBBABFABCbXEHADAAROAFAWEJGEBGEBGEBGEBGEBGEBGEBGEB-FABRAAPAAQAAPAAQACRAAPAAQAARAAPAAQAIRA",
    "AMABRAAMAARAAPAAQABRAAPAAQAANAAOAANAAOAANAAOAANAAOAERAADAJRABMADRAAMAARAANAMRABVACRAANAAOAANAAOA",
    "ANAAOAANAAOAAMbCZVBcYVMgVV6PVAAWACRAAVAADAAEAAJAANAAOAANAAOAANAAOAANAAOAANAAOABVAANAAOAANAAOAANA",
    "AOAANAAOAAMAANABOAAVAIJADFABGAAMAEDABVACJAADAAEAARABVBcVECBFABUABDAAEAAMAcZEAARACDAAEFbKEBc9EBBV",
    "ADKAJVA-EAbFVJAVAPEA+VBJKA9VAHKAAVAOKA-VAJKAbGVAOKAj-VAgn-EAb-VAuqUEAADAbdWEDbWVJbHEAFDABRAiLEAA",
    "DACRAPEAJIABEUAAAABAAAAABAAAAABAAAAABAAAAABAAAAABAAAAABAAAAABAAAAABAAAAABAAAAABAAAAABAAAAABAAAAA",
    "BAAAAABAAAAABAAAAABAAAAABAAAAABAAAAABAAAAABAAAAABAAAAABAAEAAFACHAARAJFAARAADAAAAABAAAAABAAAAABAA",
    "AAABAAAAABAAAAABAAAAABAAAAABAAAAABAAAAABAAAAABAAAAABAAAAABAAAAABABDABFAcFEAJJABFAFRIWUAIDABUAAAA",
    "ABAAAAABAAAAABAAAAABAAAAABAAAAABAAAACBAAAAABAAAAABAAAAABAAAAABAAAAABAAAAABAAAAABAAAAABAAAAABAAAA",
    "ABAAAAABAAAAABAAAAABAAAAABAAAAABAAAAABAAAAABAAAAABAAAAABAAAAABAAAAABAAAAABAAAAABAAAAABAAAAABAAAA",
    "ABAAAAABAAAAABAAAAABAAAAABAAAAABAADAHBAAAAABAAAAABABAAABAAAAABAAAAABAAAAABAAAAABAADABUAAAAABAAAA",
    "ABAAEAAAAABAAAACBAAAAABAAAAABAAAAABAAAAABAAAAABAAAAABAAAAABAAAAABAAAAABAAAAABAEAAABAEAAABAAAAABA",
    "AAAABAAAAABAAAAABAAAAABAAAAABAAAAABADAAABAAAAABABAAABCAAAABBABBABAAAAABAAAAABAAAAABAAAVCDAAAAABA",
    "AEABDAABAGEAAFACEAAFADEAAFAWEABGABFAAGADVAAFDFKABVAATAAVGbTEADRIBGAbREAPGABFIBRAJIGRFAFEACRAAEAA",
    "RABEAAFAJIA7EAHFABRAWEAKFABGLARA8EDCFAAGAbOEAAFABGADFABGABFACGAMRBADAJIEBRAEEAAFAADAIEAJIAEEBbIE",
    "AFFABGABFABGABFJCEAAFAHEAAFAAGCJICDRAPEAADAFEACVAAEAAGAAFAAGAbREAAFAAEACFABEABFAEEABFAAEAAFAAEYB",
    "EAADABRAKEAAGABFABGABRAAEABDAAGAAFKFECFECFEJGEBGEBbKBAAUADDAIBAADABUEcPBAbCEABGAAFABGAAFABGAARAA",
    "GAAFCJIGk3DEMWEEbQEEb5-7Agh-8AlNECdJEbGGBMEBFAEAAFAJEAASAMEBEEBAEBBEBBEBdLEAQUQlKEAAOAANAPVAb-EC",
    "bVEHAVbALEAATACVAPFAGRAANAAOAARGPFAARABMABLAANAAOAANAAOAANAAOAANAAOAANAAOAANAAOAANAAOAANAAOABRAA",
    "NAAOADRACLACRBDRAAMAANAAOAANAAOAANAAOACRAASAAMACSBARAATABREEEBeGECA6BCRAATACRAANAAOAARAASAARAAMA",
    "BRAJIABRACSABRAZAAANAARAAOAAUAALAAUAZBAANAASAAOAASAANAAOAARAANAAOABRAJEAADAbMEABDA+EDFECFECFECCE",
    "DBTAASAAUAAVABTBAVADSABVKC6ABVCLEBZEBSEBBEBOECNEbCd6EFCREbMKDIVAbUJADKAQVABKACVBMVDAVbPbMVAAFeC8",
    "EDbQEPAFA6KE-EADKJTEAAJAHEAAJFbFEAEFF9EBARAbDEEHEAARAEJbKbHAAbHBAcNECJIGbDAEbDBEbHEIbTELARAKABOA",
    "BGABBABKBBOBBGBBBBDbTEMjWEJVEKHEYFDBbJDBIDcFFECAEBbLEBBEDAECWEBARAHKAWEABVAGKA+EIIKbQSEBBEFEKAVE",
    "AFKDARAZEFARcAbXEEBKABEAPKCbNKAAEACFBBFFDFADEBCEB8ECCFEAFAIKHIRH8EABKAARA8EACKbAHEAAVA7EABFEEKAG",
    "RJbVEDGRAVECHKASEFHKAREHDRMGKcQcIEbXbSANbSBHFKAbDEADFIJIGJIADEAADAAEAVADEFAAMAADAVBIBSgQ+KBbJEBB",
    "FAAMCBEQCEbXDFA8EAJKAAEIVEAKFADKAERWREADFADRbGUEAGKUWEJAGAAFAAGAbUEAOFAGRETKAJIAAFABEABFAAEJCFAA",
    "GAbMEACGADFABGABFABRAA6ADRAAFKA6CYEHJIGCFAbDEAEFAAGAHFBJIADRAAEABGAAEIbCEAAFABRAAEJBFAAGAbPEACGA",
    "IFABGADEADRADFAARAAGAAFAJIAAEAARAAEACRBTKLREBYEACGACFABGAAFAAGABFAFRAAFABEAAFb+GEBAEBDEBOEBJEAAR",
    "GbOEAAFACGAHFFJIGBFABGBHECBECVEBGEBBEBEEBBFAAEABGAAFADGCBGCCGCAEGAGFEEABGCGFDEFLJEBAECAEBbFEBAEA",
    "CGAFFBAGCAGBDGBBGAAFAAGAAFAAEAAFAAEABRBBRIBF9bUEACGAHFABGACFAAGAAFADEAERAJIABRBARAAFACE+bPEACGAF",
    "FAAGAAFADGABFAAGABFABEAARAAEIJIfGbOEACGADFCDGABFAAGABFAWRADEABFbCbPEACGAHFABGAAFAAGABFACRAAELJIG",
    "MRTbKEAAFAAGAAFABGAFFAAGAAFAAEAARGJIGTI86ECAFAAGAAFABGADFAAGAEFEJIABKACRAAVAGEfZbLEACGAIFAAGABFA",
    "ARdE-AA-BAJIAIKMHECAECHEBBEBXEAFGBBGCBFAAGAAFAAEAAGAAEAAGAAFACRJJIcGHECbGEACGADFCBFADGAAFAAEAARA",
    "AEAAG7AEAJFAbHEAFFAAGAAEADFAHRAAFIAEAFFABGACFAbNEAMFAAGABFACRAAEAERNcIEHJRfWbAEAAROJIGIEBbEEAAGA",
    "GFBFFAAGAAFAAEAERKJIASKDBRA9ECVFBAGAGFAAGABFAAGABFcJGEBBEBbFEAFFDAFBBFBGFAAEAAFIJIGFEBBEB-EAEGBB",
    "FBBGAAFAAGAAFAAEHJIjWSEABFABGABRHBFAAEAAGAMEBbBEABGAEFDBGAAFAAGAAFAMRAJIAAFcVAEPUKAHVADTAQVNARA2",
    "ZEdGdOJBERLgDEcsMdAEABRNbbPEAP6AAFAFEAOFKd26EFsGEgvZ9EALFACGACFAJIbwGrYEH+EBJIEBRAcOEBJIG9ECEFAA",
    "RKbPEAGFAERADVADDAARAAVKJIBGKBUEFSEnQCDAbHEABDACRAJIgG-AA-BAWKADRdFcKEEAFAAEAbWGHDFAMDcABDAARAAD",
    "AAFLBGOf5XEIbgVEbJJEixHDDBGDBBDBjCEPAE9CECAEODEImLEciEdKEFMEDIEHJECAVABFAARAD6d08hPVAJIGnTVcMbNF",
    "CWFJdTVb8hVVKbGVCb7VABGACFACVAFGAH6AHFABVAGFA9VADFAb8VVcBVACFAAVd6TKMTKMcWVJYKeHZAAZBAZAAGBBRBAZ",
    "AAZBAAABBACAACBACDABHAADBBABBGBBKBAZAAZBABABDACHABGABZBABABDABEABAADGABZBAZAAZBAZAAZBAZAAZBAZAAZ",
    "BAZAAZBAZAA7BCYAAASAYBAASAFBAYAAASAYBAASAFBAYAAASAYBAASAFBAYAAASAYBAASAFBAYAAASAYBAASAFBAAAAABCb",
    "RIAp-VAbWFADVAbRFAHVAAFANVAAFABVAERPEFBOFbcQJBAAEATBGFBgVGFBQFCGFBBFBEFFb9DbBAFdQbMEDGFAGDCJIEAE",
    "AAVkA9EAAFRbLEADFAJIFAToQ6EAADADFAJIgW9EABFAAEAJIEARpAGEBDEBBEBOEBgEECIKAGFbJbBAAbBBAGFAADEJIEBR",
    "yRb6KAAVACKAATADKcMbMKAAVAOKgCDEB6EBBEBAECAEBJEBDEBAEBAEGAEEAEBAEBAEBCEBBEBAECAEBAEBAEBAEBAEBBEB",
    "AECDEBGEBDEBDEBAEBJEBQEFCEBEEBQEbUBSiObLVEdDVMOVCOVBOVBbEVKMKAfAVbY8VNbLVEIVHBVOFVe6h6VAEUAwXVEQ",
    "VDMVDdWVEc+VGLVEAVPLVEbXVIJVGbHVI9VCLVEBVb+kTVMNVCMVDJVFbXVHOVCKVGIVHeSVBc7VAJIbaGbjw-EbAebZEGg9",
    "ECfuBEOhjQEPtNEcnCq9EbpCe0KEFec-EvxcRA6+c-6eAhPFb5qQb5598Cb5598"])

/-- The category of `c`; what the table does not hold is unassigned. -/
def of (c : Char) : Category :=
  match table.find? c.toNat with
  | some i => all[i]?.getD .cn
  | none => .cn

/-- The letters `L`. -/
def isLetter : Category → Bool
  | lu | ll | lt | lm | lo => true
  | _ => false

/-- The letters with case, `LC`. -/
def isCasedLetter : Category → Bool
  | lu | ll | lt => true
  | _ => false

/-- The marks `M`. -/
def isMark : Category → Bool
  | mn | mc | me => true
  | _ => false

/-- The numbers `N`. -/
def isNumber : Category → Bool
  | nd | nl | no => true
  | _ => false

/-- The punctuation `P`. -/
def isPunctuation : Category → Bool
  | pc | pd | ps | pe | pi | pf | po => true
  | _ => false

/-- The symbols `S`. -/
def isSymbol : Category → Bool
  | sm | sc | sk | so => true
  | _ => false

/-- The separators `Z`. -/
def isSeparator : Category → Bool
  | zs | zl | zp => true
  | _ => false

/-- Everything else, `C`, the unassigned characters included. -/
def isOther : Category → Bool
  | cc | cf | cs | co | cn => true
  | _ => false

/-- The set of characters that a category or group is named for; `name` is folded
(`Unicode.foldName`). -/
def named? (name : String) : Option (Char → Bool) :=
  match name with
  | "any" => some fun _ => true
  | "ascii" => some fun c => c.toNat < 128
  | "assigned" => some fun c => of c != cn
  | "l" | "letter" => some (isLetter ∘ of)
  | "lc" | "casedletter" => some (isCasedLetter ∘ of)
  | "m" | "mark" | "combiningmark" => some (isMark ∘ of)
  | "n" | "number" => some (isNumber ∘ of)
  | "p" | "punctuation" | "punct" => some (isPunctuation ∘ of)
  | "s" | "symbol" => some (isSymbol ∘ of)
  | "z" | "separator" => some (isSeparator ∘ of)
  | "c" | "other" => some (isOther ∘ of)
  | "lu" | "uppercaseletter" => some (of · == lu)
  | "ll" | "lowercaseletter" => some (of · == ll)
  | "lt" | "titlecaseletter" => some (of · == lt)
  | "lm" | "modifierletter" => some (of · == lm)
  | "lo" | "otherletter" => some (of · == lo)
  | "mn" | "nonspacingmark" => some (of · == mn)
  | "mc" | "spacingmark" => some (of · == mc)
  | "me" | "enclosingmark" => some (of · == me)
  | "nd" | "decimalnumber" | "digit" => some (of · == nd)
  | "nl" | "letternumber" => some (of · == nl)
  | "no" | "othernumber" => some (of · == no)
  | "pc" | "connectorpunctuation" => some (of · == pc)
  | "pd" | "dashpunctuation" => some (of · == pd)
  | "ps" | "openpunctuation" => some (of · == ps)
  | "pe" | "closepunctuation" => some (of · == pe)
  | "pi" | "initialpunctuation" => some (of · == pi)
  | "pf" | "finalpunctuation" => some (of · == pf)
  | "po" | "otherpunctuation" => some (of · == po)
  | "sm" | "mathsymbol" => some (of · == sm)
  | "sc" | "currencysymbol" => some (of · == sc)
  | "sk" | "modifiersymbol" => some (of · == sk)
  | "so" | "othersymbol" => some (of · == so)
  | "zs" | "spaceseparator" => some (of · == zs)
  | "zl" | "lineseparator" => some (of · == zl)
  | "zp" | "paragraphseparator" => some (of · == zp)
  | "cc" | "control" | "cntrl" => some (of · == cc)
  | "cf" | "format" => some (of · == cf)
  | "cn" | "unassigned" => some (of · == cn)
  | "co" | "privateuse" => some (of · == co)
  | "cs" | "surrogate" => some fun _ => false
  | _ => none

end Category

end Amend.Unicode
