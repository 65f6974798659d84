import MitxOnline.Lib.Autocommit
import MitxOnline.Lib.FixedPoint
import MitxOnline.Lib.Proofs.FoldsProofs
import MitxOnline.Lib.StateFlow
import MitxOnline.Lib.Trace
import MitxOnline.B2b.Proofs.ContractsProofs
import MitxOnline.B2b.Proofs.MembershipsProofs
import MitxOnline.Courses.Proofs.EnrollmentsProofs
import MitxOnline.Ecommerce.Proofs.CheckoutProofs
import MitxOnline.Ecommerce.Proofs.DiscountValidityProofs
import MitxOnline.Ecommerce.Proofs.DiscountsProofs
import MitxOnline.Ecommerce.Proofs.GrantsProofs
import MitxOnline.Ecommerce.Proofs.OrderFlowProofs
import MitxOnline.Ecommerce.Proofs.PaymentsProofs
import MitxOnline.Ecommerce.Proofs.PendingOrderProofs
import MitxOnline.Ecommerce.Proofs.PurchasesProofs
import MitxOnline.Ecommerce.Proofs.RefundsProofs
import MitxOnline.Ecommerce.Proofs.RetriesProofs
import MitxOnline.B2b.Proofs.ReconciliationProofs
import MitxOnline.Lib.Thresholds
import MitxOnline.Courses.Certificates
import MitxOnline.Courses.Proofs.LearnersProofs
import MitxOnline.Courses.Proofs.BackfillProofs
import MitxOnline.Courses.Proofs.CertificatesProofs
import MitxOnline.Ecommerce.Proofs.DeliveriesProofs
import MitxOnline.Ecommerce.Redemptions
import MitxOnline.Ecommerce.Proofs.RedemptionsProofs
import MitxOnline.B2b.EnrollmentCodes
import MitxOnline.B2b.Proofs.EnrollmentCodesProofs
import MitxOnline.B2b.Proofs.UsedCodesProofs
import MitxOnline.B2b.Proofs.CodeCountsProofs
import MitxOnline.Courses.RunDates
import MitxOnline.Courses.Retirement
import MitxOnline.Courses.Proofs.RetirementProofs
import MitxOnline.Lib.LatestWins
import MitxOnline.B2b.EmailStatus
import MitxOnline.B2b.Proofs.EmailStatusProofs
import MitxOnline.FlexiblePricing.Approval
import MitxOnline.Lib.Search
import MitxOnline.FlexiblePricing.Proofs.ApprovalProofs
import MitxOnline.Courses.Deferrals
import MitxOnline.Courses.Proofs.DeferralsProofs
import MitxOnline.Lib.Paths
import MitxOnline.Courses.RequirementClasses
import MitxOnline.Lib.Quotas
import MitxOnline.Courses.ProgramUpgrades
import MitxOnline.Courses.Proofs.ProgramUpgradesProofs
import MitxOnline.Lib.Displacement
import MitxOnline.Ecommerce.AutoDiscounts
import MitxOnline.Ecommerce.Proofs.AutoDiscountsProofs
import MitxOnline.Courses.ProgramCourseEnrollments
import MitxOnline.Courses.Proofs.ProgramCourseEnrollmentsProofs
import MitxOnline.Lib.PathMaps
import MitxOnline.Courses.Proofs.RequirementTreesProofs
import MitxOnline.Courses.TreeOperations
import MitxOnline.Compliance.ExportChecks
import MitxOnline.Compliance.Proofs.ExportChecksProofs
import MitxOnline.HubspotSync.RateLimiter
import MitxOnline.Lib.SlidingWindow
import MitxOnline.HubspotSync.Proofs.RateLimiterProofs
import MitxOnline.Openedx.AccountCreation
import MitxOnline.Openedx.Proofs.AccountCreationProofs
import MitxOnline.Openedx.Proofs.AccountRunsProofs
import MitxOnline.Lib.Dict
import MitxOnline.Openedx.EnrollmentSync
import MitxOnline.Ecommerce.BasketComparison
import MitxOnline.Openedx.Proofs.EnrollmentSyncProofs
import MitxOnline.Ecommerce.Proofs.BestDiscountProofs
import MitxOnline.Ecommerce.DiscountCreation
import MitxOnline.Ecommerce.Proofs.DiscountPricesProofs
import MitxOnline.Ecommerce.DuplicateRedemptions
import MitxOnline.Ecommerce.PendingResolution
import MitxOnline.Ecommerce.Proofs.PendingResolutionProofs
import MitxOnline.B2b.ContractRunKeys
import MitxOnline.B2b.Proofs.ContractRunKeysProofs
import MitxOnline.B2b.Proofs.RunHistoryProofs
import MitxOnline.Lib.UniqueConstraint
import MitxOnline.B2b.CourseRunGroups
import MitxOnline.B2b.ContractProducts
import MitxOnline.B2b.Proofs.ContractProductsProofs
import MitxOnline.B2b.CodeAssignments
import MitxOnline.B2b.Proofs.CodeAssignmentsProofs
import MitxOnline.Lib.Draws
import MitxOnline.B2b.Proofs.BulkAssignmentsProofs
import MitxOnline.Courses.EnrollmentResults
import MitxOnline.Courses.Proofs.ProgramEnrollmentsProofs
import MitxOnline.Courses.Proofs.EnrollmentNotificationsProofs
import MitxOnline.Courses.Proofs.DeferralStepsProofs
import MitxOnline.Courses.Proofs.DeferralPostStateProofs
import MitxOnline.Courses.EnrollmentChanges
import MitxOnline.Courses.Proofs.DeferralAtomicityProofs
import MitxOnline.B2b.SourceRuns
import MitxOnline.Courses.Proofs.EnrollmentChangesProofs
import MitxOnline.B2b.Proofs.ContractRunRoundsProofs
import MitxOnline.B2b.Proofs.SourceRunsProofs
import MitxOnline.Ecommerce.Downgrades
import MitxOnline.Ecommerce.Proofs.UpgradeGuardProofs
import MitxOnline.Openedx.Proofs.EdxEnrolledProofs
import MitxOnline.Openedx.EnrollmentRetries
import MitxOnline.Openedx.Proofs.EnrollmentRetriesProofs
import MitxOnline.Lib.Transactions
import MitxOnline.Openedx.ApiAuth
import MitxOnline.Lib.Paging
import MitxOnline.Courses.BackfillRuns
import MitxOnline.Ecommerce.AnonymousBaskets
import MitxOnline.Ecommerce.Proofs.AnonymousBasketsProofs
import MitxOnline.Ecommerce.LegacyDiscounts
import MitxOnline.Ecommerce.Proofs.LegacyDiscountsProofs
import MitxOnline.Courses.RequirementEdits
import MitxOnline.Courses.Proofs.RequirementEditsProofs
import MitxOnline.Courses.Proofs.RequirementRunsProofs
import MitxOnline.Lib.Batches
import MitxOnline.HubspotSync.Associations
import MitxOnline.HubspotSync.Proofs.AssociationsProofs
import MitxOnline.Frontend.FlexiblePrices
import MitxOnline.HubspotSync.Deals
import MitxOnline.HubspotSync.Proofs.DealsProofs
import MitxOnline.Lib.NumberedNames
import MitxOnline.Openedx.Usernames
import MitxOnline.Openedx.Proofs.UsernamesProofs
import MitxOnline.Frontend.ProgramRecords
import MitxOnline.Frontend.Proofs.ProgramRecordsProofs
import MitxOnline.Courses.UserMigration
import MitxOnline.Courses.Proofs.UserMigrationProofs
import MitxOnline.B2b.CodeValidation
import MitxOnline.B2b.Proofs.SeatSettlementProofs
import MitxOnline.B2b.Proofs.CodeValidationProofs
import MitxOnline.B2b.AssignmentCommand
import MitxOnline.B2b.Proofs.AssignmentCommandProofs
import MitxOnline.HubspotSync.TargetedDeals
import MitxOnline.HubspotSync.Proofs.TargetedDealsProofs
import MitxOnline.HubspotSync.Proofs.TargetedDealRunsProofs
import MitxOnline.Courses.EnrollmentMigration
import MitxOnline.Courses.Proofs.VerifiedModesProofs
import MitxOnline.Courses.Proofs.EnrollmentMigrationProofs
import MitxOnline.Courses.Proofs.EnrollmentMigrationBatchesProofs
import MitxOnline.Courses.Proofs.EnrollmentMigrationRunsProofs
import MitxOnline.FlexiblePricing.TierConfiguration
import MitxOnline.FlexiblePricing.Proofs.TierConfigurationProofs
import MitxOnline.FlexiblePricing.Proofs.TierRunsProofs
import MitxOnline.Courses.ProgramRunBackfill
import MitxOnline.Courses.Proofs.ProgramRunBackfillProofs
import MitxOnline.Courses.RelatedPrograms
import MitxOnline.Courses.Proofs.RequirementQueriesProofs
import MitxOnline.Courses.RequirementQueries
import MitxOnline.Lib.Upserts
import MitxOnline.B2b.ContractTransfer
import MitxOnline.B2b.Proofs.TransferTablesProofs
import MitxOnline.B2b.Proofs.ContractExportProofs
import MitxOnline.B2b.Proofs.TransferCoursesProofs
import MitxOnline.B2b.Proofs.TransferProgramsProofs
import MitxOnline.B2b.Proofs.ImportedProofs
import MitxOnline.B2b.Proofs.ContractTransferProofs
import MitxOnline.B2b.B2bEnrollments
import MitxOnline.B2b.Proofs.B2bEnrollmentsProofs
import MitxOnline.B2b.Proofs.RunSeatsProofs
import MitxOnline.B2b.Proofs.MemberEnrollmentsProofs
import MitxOnline.FlexiblePricing.PriceRequests
import MitxOnline.FlexiblePricing.Proofs.PriceRequestsProofs
import MitxOnline.FlexiblePricing.Proofs.RequestRunsProofs
import MitxOnline.Courses.RunSync
import MitxOnline.Courses.Proofs.RunSyncProofs
import MitxOnline.Courses.Proofs.ClosedRunsProofs
import MitxOnline.Lib.Worklist
import MitxOnline.B2b.ContractCourseware
import MitxOnline.B2b.Proofs.CodeWithdrawalProofs
import MitxOnline.B2b.Proofs.ContractCoursewareProofs
import MitxOnline.Courses.CertificateTask
import MitxOnline.Courses.Proofs.CertificateTaskProofs
import MitxOnline.Lib.Dialogues
import MitxOnline.Openedx.CourseRunClones
import MitxOnline.Openedx.Proofs.CourseRunClonesProofs
import MitxOnline.B2b.CodeSheets
import MitxOnline.B2b.Proofs.PlainSheetsProofs
import MitxOnline.B2b.Proofs.CodeSheetsProofs
